import HostBridge.Bridge.Export
import Mathlib.Data.Finset.Card
import Mathlib.Data.Finset.Range
import Mathlib.Logic.Relation

/-!
# The graph of structs

A struct leads to those that its exported fields hold, directly or behind boxes and
optionals; what is held in a sequence, a map or a tuple is not led to.  The graph
may have cycles.  It is finite, so a registry that knows one more of its structs
with every step of a walk brings the walk to an end.
-/

namespace HostBridge

namespace Program

variable (program : Program)

/-- An exported field of the outer struct holds the inner one, directly or behind boxes
and optionals. -/
def Nests (outer inner : StructId) : Prop :=
  ∃ entry ∈ exportedFields (program.struct outer), entry.1.type.nested? = some inner

/-- A struct is the same as another or is reached from it by way of fields. -/
def Reaches : StructId → StructId → Prop := Relation.ReflTransGen program.Nests

/-- A struct is among those that the program declares. -/
def Declared (id : StructId) : Prop := id.index < program.structs.length

instance (id : StructId) : Decidable (program.Declared id) :=
  inferInstanceAs (Decidable (_ < _))

/-- Fields hold structs that are declared. -/
def Resolves : Prop := ∀ outer inner, program.Nests outer inner → program.Declared inner

/-- The structs that a registry knows lead to others that it knows. -/
def Closed (registry : Registry) : Prop :=
  ∀ outer inner, registry.handle? outer ≠ none → program.Nests outer inner →
    registry.handle? inner ≠ none

/-- How many declared structs a registry does not know. -/
def missing (registry : Registry) : Nat :=
  ((Finset.range program.structs.length).filter fun index => registry.handle? ⟨index⟩ = none).card

end Program

/-- Entries whose keys differ are found under their keys. -/
theorem lookup_of_mem {α β : Type} [BEq α] [LawfulBEq α] {entries : List (α × β)}
    (distinct : (entries.map Prod.fst).Nodup) {entry : α × β} (member : entry ∈ entries) :
    entries.lookup entry.1 = some entry.2 := by
  induction entries with
  | nil => cases member
  | cons first rest ih =>
    obtain ⟨key, value⟩ := first
    obtain ⟨absent, distinct⟩ := List.nodup_cons.mp distinct
    rcases List.mem_cons.mp member with rfl | later
    · exact List.lookup_cons_self
    · have apart : (entry.1 == key) = false :=
        beq_eq_false_iff_ne.mpr fun same => absent (List.mem_map.mpr ⟨entry, later, same⟩)
      rw [List.lookup_cons, apart]
      exact ih distinct later

namespace Registry

variable {registry : Registry}

/-- The registry with further types. -/
def enrolling (entries : List (Ref × BridgedType)) (registry : Registry) : Registry :=
  { registry with
    bridged := registry.bridged ++ entries
    types := registry.types ++ entries.map fun entry => (entry.2.host, entry.1) }

@[simp]
theorem enrolling_nil (registry : Registry) : registry.enrolling [] = registry := by
  simp [enrolling]

theorem enrolling_singleton (handle : Ref) (bridged : BridgedType) :
    enrolling [(handle, bridged)] = enroll handle bridged := rfl

@[simp]
theorem enrolling_enrolling (first second : List (Ref × BridgedType)) (registry : Registry) :
    (registry.enrolling first).enrolling second = registry.enrolling (first ++ second) := by
  simp [enrolling]

/-- A handle that is found stays what it is. -/
theorem handle?_enrolling (entries : List (Ref × BridgedType)) (registry : Registry)
    (id : StructId) :
    (registry.enrolling entries).handle? id = (registry.handle? id).or
      ((entries.map fun entry => (entry.2.host, entry.1)).lookup id) := by
  simp [handle?, enrolling, List.lookup_append]

/-- What was known is known, and so is what has been entered. -/
theorem handle?_enrolling_eq_none {entries : List (Ref × BridgedType)} {id : StructId} :
    (registry.enrolling entries).handle? id = none ↔
      registry.handle? id = none ∧ id ∉ entries.map (·.2.host) := by
  rw [handle?_enrolling, Option.or_eq_none_iff, List.lookup_eq_none_iff]
  simp only [bne_iff_ne, List.mem_map, not_exists, not_and, forall_exists_index, and_imp,
    forall_apply_eq_imp_iff₂]
  exact and_congr_right fun _ => forall₂_congr fun _ _ => ne_comm

end Registry

namespace Program

variable {program : Program} {registry : Registry}

theorem Reaches.head {outer inner last : StructId} (nests : program.Nests outer inner)
    (reaches : program.Reaches inner last) : program.Reaches outer last :=
  Relation.ReflTransGen.head nests reaches

/-- All that a registered struct leads to is known to a closed registry. -/
theorem Closed.reaches (closed : program.Closed registry) {first last : StructId}
    (known : registry.handle? first ≠ none) (reaches : program.Reaches first last) :
    registry.handle? last ≠ none := by
  induction reaches with
  | refl => exact known
  | tail _ nests ih => exact closed _ _ ih nests

theorem closed_of_empty (empty : registry.types = []) : program.Closed registry := by
  intro outer inner known
  rw [Registry.handle?, empty] at known
  exact absurd rfl known

/-- Entering structs leaves fewer that are not known. -/
theorem missing_enrolling_le (program : Program) (entries : List (Ref × BridgedType))
    (registry : Registry) :
    program.missing (registry.enrolling entries) ≤ program.missing registry := by
  refine Finset.card_le_card fun index member => ?_
  rw [Finset.mem_filter, Registry.handle?_enrolling_eq_none] at member
  exact Finset.mem_filter.mpr ⟨member.1, member.2.1⟩

/-- A declared struct that is not known is among those that are counted. -/
theorem mem_missing {id : StructId} (declared : program.Declared id)
    (unknown : registry.handle? id = none) :
    id.index ∈ (Finset.range program.structs.length).filter fun index =>
      registry.handle? ⟨index⟩ = none :=
  Finset.mem_filter.mpr ⟨Finset.mem_range.mpr declared, unknown⟩

theorem missing_pos {id : StructId} (declared : program.Declared id)
    (unknown : registry.handle? id = none) : 0 < program.missing registry :=
  Finset.card_pos.mpr ⟨_, mem_missing declared unknown⟩

/-- A declared struct that was not known is one less. -/
theorem missing_enroll_lt {bridged : BridgedType} (declared : program.Declared bridged.host)
    (unknown : registry.handle? bridged.host = none) (handle : Ref) :
    program.missing (registry.enroll handle bridged) < program.missing registry := by
  rw [← Registry.enrolling_singleton]
  refine Finset.card_lt_card (Finset.ssubset_iff_subset_ne.mpr ⟨fun index member => ?_, ?_⟩)
  · rw [Finset.mem_filter, Registry.handle?_enrolling_eq_none] at member
    exact Finset.mem_filter.mpr ⟨member.1, member.2.1⟩
  · intro same
    have member := mem_missing declared unknown
    rw [← same, Finset.mem_filter, Registry.handle?_enrolling_eq_none] at member
    simp at member

/-- There are not more structs to be known than are declared. -/
theorem missing_le (program : Program) (registry : Registry) :
    program.missing registry ≤ program.structs.length := by
  refine (Finset.card_filter_le _ _).trans ?_
  rw [Finset.card_range]

end Program

end HostBridge
