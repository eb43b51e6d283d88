import HostBridge.Proofs.Dict.Canonical
import HostBridge.Proofs.Dict.Numeric

/-!
# Equality level by level

Equality compares two objects by what can be seen at them and then goes into both at once.
`Heap.Matches` is one level of that, whatever is done with the parts.  How deep the walk may go is
bounded, but an object whose structure has no cycle is never as deep as the bound: it is a level of
equality above its parts.
-/

namespace HostBridge

/-- What a list, a tuple or a dict is made of. -/
def Body.contents : Body → List Ref
  | .list items => items
  | .tuple items => items
  | .dict table => table.references
  | _ => []

theorem Body.quantity?_of_number? {body : Body} {number : Numeric}
    (reading : body.number? = some number) : body.quantity? = some (.numeric number) := by
  cases body <;> cases reading <;> rfl

namespace Heap

variable {heap : Heap} {same : Ref → Ref → Prop} {left right : Ref}

/-- An object has another one in it. -/
def Contains (heap : Heap) (outer inner : Ref) : Prop := inner ∈ (heap.body outer).contents

theorem contains_of_list {items : List Ref} (reading : heap.body left = .list items) :
    ∀ part ∈ items, heap.Contains left part :=
  fun part member => by rwa [Contains, reading]

theorem contains_of_tuple {items : List Ref} (reading : heap.body left = .tuple items) :
    ∀ part ∈ items, heap.Contains left part :=
  fun part member => by rwa [Contains, reading]

theorem contains_of_dict {table : Dict} (reading : heap.body left = .dict table) :
    ∀ entry ∈ table.entries, heap.Contains left entry.key ∧ heap.Contains left entry.value := by
  intro entry member
  rw [Contains, Contains, reading]
  exact ⟨Dict.mem_references.mpr ⟨entry, member, .inl rfl⟩,
    Dict.mem_references.mpr ⟨entry, member, .inr rfl⟩⟩

/-- Two objects match as far as can be seen at them, and what they are made of is the same. -/
inductive Matches (heap : Heap) (same : Ref → Ref → Prop) : Ref → Ref → Prop
  | one (ref : Ref) : Matches heap same ref ref
  | numbers {left right : Ref} {number other : Quantity}
    (reading : (heap.body left).quantity? = some number)
    (reading' : (heap.body right).quantity? = some other) (equal : number.equal other = true) :
    Matches heap same left right
  | text {left right : Ref} {value : String} (reading : heap.body left = .text value)
    (reading' : heap.body right = .text value) : Matches heap same left right
  | bytes {left right : Ref} {value : List UInt8} (reading : heap.body left = .bytes value)
    (reading' : heap.body right = .bytes value) : Matches heap same left right
  | lists {left right : Ref} {items others : List Ref} (reading : heap.body left = .list items)
    (reading' : heap.body right = .list others) (each : List.Forall₂ same items others) :
    Matches heap same left right
  | tuples {left right : Ref} {items others : List Ref} (reading : heap.body left = .tuple items)
    (reading' : heap.body right = .tuple others) (each : List.Forall₂ same items others) :
    Matches heap same left right
  | dicts {left right : Ref} {table other : Dict} (reading : heap.body left = .dict table)
    (reading' : heap.body right = .dict other) (sizes : table.size = other.size)
    (each : ∀ entry ∈ table.entries, ∃ projection value, heap.key entry.key = .ok projection ∧
      other.get? projection = some value ∧ same entry.value value) :
    Matches heap same left right

theorem equalItems_iff {depth : Nat} {items others : List Ref} :
    equalWithin.equalItems heap depth items others = true ↔
      List.Forall₂ (heap.equalWithin depth · · = true) items others := by
  rw [equalWithin.equalItems, Bool.and_eq_true, beq_iff_eq, List.all_eq_true,
    List.forall₂_iff_zip]
  exact and_congr_right fun _ => ⟨fun each _ _ member => each _ member,
    fun each pair member => each member⟩

/-- The walk goes one level deeper. -/
theorem equalWithin_succ {depth : Nat} :
    heap.equalWithin (depth + 1) left right = true ↔
      heap.Matches (heap.equalWithin depth · · = true) left right := by
  rw [equalWithin, Bool.or_eq_true, beq_iff_eq]
  constructor
  · rintro (rfl | compared)
    · exact .one left
    · split at compared
      · rename_i reading reading'
        exact .numbers (Body.quantity?_of_number? reading) (Body.quantity?_of_number? reading')
          compared
      · split at compared
        · rename_i reading reading'
          exact .numbers (congrArg Body.quantity? reading) (congrArg Body.quantity? reading')
            compared
        · rename_i reading reading'
          exact .text reading (beq_iff_eq.mp compared ▸ reading')
        · rename_i reading reading'
          exact .bytes reading (beq_iff_eq.mp compared ▸ reading')
        · rename_i reading reading'
          exact .lists reading reading' (equalItems_iff.mp compared)
        · rename_i reading reading'
          exact .tuples reading reading' (equalItems_iff.mp compared)
        · rename_i table other reading reading'
          rw [Bool.and_eq_true, beq_iff_eq, List.all_eq_true] at compared
          refine .dicts reading reading' compared.1 fun entry member => ?_
          have each := compared.2 entry member
          split at each
          · rename_i value found
            cases hashed : heap.key entry.key with
            | error exception =>
              rw [hashed] at found
              cases found
            | ok projection =>
              rw [hashed] at found
              exact ⟨projection, value, rfl, Except.ok.inj found, each⟩
          · cases each
        · cases compared
  · intro matching
    cases matching with
    | one => exact .inl rfl
    | numbers reading reading' equal =>
      right
      cases body : heap.body left <;> rw [body] at reading <;> cases reading <;>
        cases body' : heap.body right <;> rw [body'] at reading' <;> cases reading' <;>
        exact equal
    | text reading reading' => simp [reading, reading', Body.number?]
    | bytes reading reading' => simp [reading, reading', Body.number?]
    | lists reading reading' each =>
      simp [reading, reading', Body.number?, equalItems_iff.mpr each]
    | tuples reading reading' each =>
      simp [reading, reading', Body.number?, equalItems_iff.mpr each]
    | dicts reading reading' sizes each =>
      right
      simp only [reading, reading', Body.number?, Bool.and_eq_true, beq_iff_eq, List.all_eq_true]
      refine ⟨sizes, fun entry member => ?_⟩
      obtain ⟨projection, value, hashed, found, equal⟩ := each entry member
      simp only [hashed, Except.map, found, equal]

/-- Matching depends on how the parts of the two objects are compared, and on nothing else. -/
theorem Matches.imp {other : Ref → Ref → Prop} (matching : heap.Matches same left right)
    (parts : ∀ part counterpart, heap.Contains left part → heap.Contains right counterpart →
      same part counterpart → other part counterpart) : heap.Matches other left right := by
  have lift : ∀ {items others : List Ref}, (∀ part ∈ items, heap.Contains left part) →
      (∀ part ∈ others, heap.Contains right part) → List.Forall₂ same items others →
      List.Forall₂ other items others := by
    intro items others inside inside' each
    rw [List.forall₂_iff_zip] at each ⊢
    refine ⟨each.1, fun {part counterpart} member => ?_⟩
    obtain ⟨here, there⟩ := List.of_mem_zip member
    exact parts part counterpart (inside part here) (inside' counterpart there) (each.2 member)
  cases matching with
  | one => exact .one left
  | numbers reading reading' equal => exact .numbers reading reading' equal
  | text reading reading' => exact .text reading reading'
  | bytes reading reading' => exact .bytes reading reading'
  | lists reading reading' each =>
    exact .lists reading reading' (lift (contains_of_list reading) (contains_of_list reading') each)
  | tuples reading reading' each =>
    exact .tuples reading reading'
      (lift (contains_of_tuple reading) (contains_of_tuple reading') each)
  | dicts reading reading' sizes each =>
    refine .dicts reading reading' sizes fun entry member => ?_
    obtain ⟨projection, value, hashed, found, equal⟩ := each entry member
    refine ⟨projection, value, hashed, found,
      parts _ _ (contains_of_dict reading entry member).2 ?_ equal⟩
    rw [Contains, reading']
    exact Dict.mem_references_of_get? found

/-! ## Depth -/

/-- An object whose structure has at most so many levels, all of it there. -/
inductive Built (heap : Heap) : Nat → Ref → Prop
  | intro {depth : Nat} {ref : Ref} (there : heap.holds ref = true)
    (parts : ∀ part, heap.Contains ref part → Built heap depth part) : Built heap (depth + 1) ref

/-- A walk that may go as deep as an object goes is not cut off. -/
theorem equalWithin_of_built {depth : Nat} (built : heap.Built depth left) {fuel fuel' : Nat}
    (enough : depth ≤ fuel) (enough' : depth ≤ fuel')
    (equal : heap.equalWithin fuel left right = true) :
    heap.equalWithin fuel' left right = true := by
  induction built generalizing fuel fuel' right with
  | @intro depth ref _ _ ih =>
    obtain ⟨fuel, rfl⟩ := Nat.exists_eq_add_of_le' (Nat.le_trans (Nat.le_add_left 1 depth) enough)
    obtain ⟨fuel', rfl⟩ := Nat.exists_eq_add_of_le' (Nat.le_trans (Nat.le_add_left 1 depth) enough')
    rw [equalWithin_succ] at equal ⊢
    exact equal.imp fun part other inside _ =>
      ih part inside (Nat.le_of_succ_le_succ enough) (Nat.le_of_succ_le_succ enough')

/-- An object that can be found in another one, at any depth. -/
def Reaches (heap : Heap) : Ref → Ref → Prop := Relation.ReflTransGen heap.Contains

/-- An object of which every part is there, and no part can be found in itself. -/
structure Acyclic (heap : Heap) (ref : Ref) : Prop where
  there : ∀ part, heap.Reaches ref part → heap.holds part = true
  apart : ∀ part, heap.Reaches ref part → ¬Relation.TransGen heap.Contains part part

namespace Acyclic

variable {ref : Ref}

theorem of_reaches (acyclic : heap.Acyclic ref) {part : Ref} (reaches : heap.Reaches ref part) :
    heap.Acyclic part :=
  ⟨fun inner inside => acyclic.there inner (reaches.trans inside),
    fun inner inside => acyclic.apart inner (reaches.trans inside)⟩

/-- What only objects that are older can be found in has no cycle. -/
theorem of_older (older : ∀ outer inner, heap.Contains outer inner →
      inner.place < outer.place ∧ heap.holds inner = true)
    (there : heap.holds ref = true) : heap.Acyclic ref := by
  refine ⟨fun part reaches => ?_, fun part _ cycle => ?_⟩
  · rcases Relation.ReflTransGen.cases_tail reaches with rfl | ⟨outer, _, inside⟩
    · exact there
    · exact (older outer part inside).2
  · have earlier : ∀ {outer inner}, Relation.TransGen heap.Contains outer inner →
        inner.place < outer.place := by
      intro outer inner below
      induction below with
      | single inside => exact (older _ _ inside).1
      | tail _ inside ih => exact Nat.lt_trans (older _ _ inside).1 ih
    exact Nat.lt_irrefl _ (earlier cycle)

/-- The parts of a part are fewer, so the levels are not more than the objects. -/
theorem built (acyclic : heap.Acyclic ref) : heap.Built heap.size ref := by
  let places : Finset Ref := (Finset.range heap.size).image Ref.mk
  let below : Ref → Set Ref := fun ref => {part | Relation.TransGen heap.Contains ref part}
  have inside : ∀ {part}, heap.holds part = true → part ∈ places := by
    intro part there
    obtain ⟨cell, there⟩ := Option.isSome_iff_exists.mp there
    exact Finset.mem_image.mpr ⟨part.place, Finset.mem_range.mpr (place_lt_size there), rfl⟩
  have within : ∀ {part}, heap.Reaches ref part → below part ⊆ places :=
    fun reaches inner deeper => inside (acyclic.there inner (reaches.trans deeper.to_reflTransGen))
  have finite : ∀ {part}, heap.Reaches ref part → (below part).Finite :=
    fun reaches => places.finite_toSet.subset (within reaches)
  have levels : ∀ depth part, heap.Reaches ref part → (below part).ncard < depth →
      heap.Built depth part := by
    intro depth
    induction depth with
    | zero => exact fun _ _ few => absurd few (Nat.not_lt_zero _)
    | succ depth ih =>
      refine fun part reaches few => .intro (acyclic.there part reaches) fun inner contains => ?_
      have reaches' : heap.Reaches ref inner := reaches.tail contains
      refine ih inner reaches' (Nat.lt_of_lt_of_le ?_ (Nat.le_of_lt_succ few))
      refine Set.ncard_lt_ncard ⟨fun deep deeper => .head contains deeper, fun all => ?_⟩
        (finite reaches)
      exact acyclic.apart inner reaches' (all (.single contains))
  refine levels heap.size ref .refl ?_
  have few : (below ref).ncard < (places : Set Ref).ncard :=
    Set.ncard_lt_ncard ⟨within .refl, fun all =>
      acyclic.apart ref .refl (all (inside (acyclic.there ref .refl)))⟩ places.finite_toSet
  rw [Set.ncard_coe_finset] at few
  exact Nat.lt_of_lt_of_le few (Finset.card_image_le.trans (Finset.card_range _).le)

/-- Equality of objects without cycles is a level of equality of their parts. -/
theorem equal_iff {left right : Ref} (acyclic : heap.Acyclic left) :
    heap.equal left right = true ↔ heap.Matches (heap.equal · · = true) left right := by
  have deep : ∀ part, heap.Contains left part → heap.Built heap.size part :=
    fun part inside => (acyclic.of_reaches (.single inside)).built
  rw [equal, equalWithin_succ]
  constructor
  · intro matching
    exact matching.imp fun part _ inside _ same =>
      equalWithin_of_built (deep part inside) (Nat.le_refl _) (Nat.le_succ _) same
  · intro matching
    exact matching.imp fun part _ inside _ same =>
      equalWithin_of_built (deep part inside) (Nat.le_succ _) (Nat.le_refl _) same

end Acyclic

end Heap

end HostBridge
