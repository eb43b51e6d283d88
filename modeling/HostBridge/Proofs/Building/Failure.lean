import HostBridge.Proofs.Building.Encode
import HostBridge.Proofs.Calling.Rejection

/-!
# When encoding fails

Whether a value can be encoded is said by the value: nothing that encoding comes to see of it is of a
sealed type, and the keys of the maps that it comes to see have objects with projections.  The latter
can be tried for each key by itself, in the world in which encoding begins.  What has been built by the
time encoding fails is gone afterwards.
-/

namespace HostBridge

open Op

variable {program : Program} {world : World} {held : Multiset Ref} {registry : RegistryId}

/-- Encoding may be begun in any world that can be reached; all that is there is lent. -/
theorem World.Reached.serves (honest : program.Honest) (reached : world.Reached program held)
    (registry : RegistryId) :
    world.Serves program registry (fun ref => ref.place < world.heap.size) held where
  sound := reached.sound honest
  tidy := reached.tidy honest
  layered := reached.layered honest
  old _ := id
  first _ := (reached.sound honest).used_of_first
  handles _ _ found :=
    (reached.sound honest).used_of_handle (Registry.mem_types_of_handle? found)

namespace Encode

variable {type : HostType} {value : HostValue}

/-- Encoding ends with an object for a value that is fine, or with a fault and all as it was. -/
theorem ends (honest : program.Honest) (reached : world.Reached program held)
    (fit : value.fits program type = true)
    (used : ∀ ref ∈ value.references, ref.place < world.heap.size) :
    match (Encode.value program registry type value).run world with
    | (.ok ref, after) => Fine program world.heap (world.registers registry) (type, value) ∧
        (after.heap.Hashable ref ↔ Hashes world.heap (world.registers registry) type value)
    | (.error fault, after) => world.Untouched after ∧
        Blames program world.heap (world.registers registry) (type, value) fault := by
  have serves := reached.serves honest registry
  have yields : YieldsValue program _ world registry type value world :=
    yields_value serves value fit used
  have run := yields 0 (.refl world 0)
  rcases ended : (Encode.value program registry type value).run world with ⟨result, after⟩
  rw [ended] at run
  cases result with
  | ok ref => exact run.2
  | error fault => exact ⟨run.1.untouched serves.sound serves.tidy, run.2⟩

/-- The object for a value has a projection just if the value is fine and says so. -/
theorem exists_hashable_iff (honest : program.Honest) (reached : world.Reached program held)
    (fit : value.fits program type = true)
    (used : ∀ ref ∈ value.references, ref.place < world.heap.size) :
    (∃ ref after, (Encode.value program registry type value).run world = (.ok ref, after) ∧
        after.heap.Hashable ref) ↔
      Fine program world.heap (world.registers registry) (type, value) ∧
        Hashes world.heap (world.registers registry) type value := by
  rcases ended : (Encode.value program registry type value).run world with ⟨result, after⟩
  have ends := @ends program world held registry type value honest reached fit used
  rw [ended] at ends
  constructor
  · rintro ⟨ref, later, ran, hashable⟩
    cases ran
    exact ⟨ends.1, ends.2.mp hashable⟩
  · rintro ⟨fine, hashes⟩
    cases result with
    | ok ref => exact ⟨ref, after, rfl, ends.2.mpr hashes⟩
    | error fault => exact absurd fine ends.2.not_fine

/-- A value is fine if it can be encoded with nothing of a sealed type to be seen, and each key to
be seen has an object with a projection. -/
theorem fine_iff (honest : program.Honest) (reached : world.Reached program held)
    (fit : value.fits program type = true)
    (used : ∀ ref ∈ value.references, ref.place < world.heap.size) :
    Fine program world.heap (world.registers registry) (type, value) ↔
      (∀ part, Visible program (world.registers registry) (type, value) part →
        ∀ id, part.1 ≠ .sealed id) ∧
      ∀ order key content entries,
        Visible program (world.registers registry) (type, value)
          (.map order key content, .map entries) →
        ∀ entry ∈ entries, ∃ ref after,
          (Encode.value program registry key entry.1).run world = (.ok ref, after) ∧
            after.heap.Hashable ref := by
  have tried : ∀ {order key content entries},
      Visible program (world.registers registry) (type, value)
        (.map order key content, .map entries) → ∀ entry ∈ entries,
      ((∃ ref after, (Encode.value program registry key entry.1).run world = (.ok ref, after) ∧
          after.heap.Hashable ref) ↔
        Fine program world.heap (world.registers registry) (key, entry.1) ∧
          Hashes world.heap (world.registers registry) key entry.1) := by
    intro order key content entries visible entry member
    have deeper : Visible program (world.registers registry) (type, value) (key, entry.1) :=
      visible.tail (.key member)
    exact exists_hashable_iff honest reached (deeper.fits fit)
      fun ref found => used ref (deeper.references_subset found)
  constructor
  · intro fine
    refine ⟨fun part visible => (fine part visible).unsealed,
      fun order key content entries visible entry member => ?_⟩
    exact (tried visible entry member).mpr ⟨fine.inside (visible.tail (.key member)),
      (fine _ visible).keys order key content entries rfl entry member⟩
  · rintro ⟨unsealed, keys⟩ part visible
    refine ⟨unsealed part visible, ?_⟩
    rintro order key content entries rfl entry member
    exact ((tried visible entry member).mp
      (keys order key content entries visible entry member)).2

end Encode

/-- Encoding succeeds if nothing of a sealed type is to be seen of the value and every key of every
map to be seen is encoded as an object with a projection.  Otherwise it leaves everything as it was,
and fails for a type without objects or for a key without a projection. -/
theorem World.Reached.encoding_fails_exactly (honest : program.Honest)
    (reached : world.Reached program held) {type : HostType} {value : HostValue}
    (fit : value.fits program type = true)
    (used : ∀ ref ∈ value.references, ref.place < world.heap.size) :
    ((∃ ref after, (Encode.value program registry type value).run world = (.ok ref, after)) ↔
      (∀ part, Encode.Visible program (world.registers registry) (type, value) part →
        ∀ id, part.1 ≠ .sealed id) ∧
      ∀ order key content entries,
        Encode.Visible program (world.registers registry) (type, value)
          (.map order key content, .map entries) →
        ∀ entry ∈ entries, ∃ ref after,
          (Encode.value program registry key entry.1).run world = (.ok ref, after) ∧
            after.heap.Hashable ref) ∧
    ∀ fault after, (Encode.value program registry type value).run world = (.error fault, after) →
      world.Untouched after ∧
        ((∃ id sealed, Encode.Visible program (world.registers registry) (type, value)
            (.sealed id, sealed) ∧
          fault = .panicked (.noRuntimeForm (program.typeName (.sealed id)))) ∨
        ∃ name, fault = .raised (.unhashable name)) := by
  have ends := @Encode.ends program world held registry type value honest reached fit used
  rw [← Encode.fine_iff honest reached fit used]
  constructor
  · constructor
    · rintro ⟨ref, after, ran⟩
      rw [ran] at ends
      exact ends.1
    · intro fine
      rcases ended : (Encode.value program registry type value).run world with ⟨ref | fault, after⟩
      all_goals rw [ended] at ends
      · exact absurd fine ends.2.not_fine
      · exact ⟨_, _, rfl⟩
  · intro fault after ran
    rw [ran] at ends
    refine ⟨ends.1, ?_⟩
    cases ends.2 with
    | sealed visible => exact .inl ⟨_, _, visible, rfl⟩
    | unhashable => exact .inr ⟨_, rfl⟩

namespace Figures

/-- A text, and a map from a point to another text. -/
def labelled : HostType × HostValue :=
  (.tuple [.text, .map .sorted (.struct ⟨0⟩) .text],
    .tuple [.text "origin",
      .map [(.struct [.int 0, .int 0], .text "start")]])

set_option maxRecDepth 10000 in
/-- A point that is not registered is encoded as a dict, which is no key. -/
theorem encoding_fails_labelled : ∃ after,
    (Encode.value Figures.program ⟨0⟩ labelled.1 labelled.2).run World.initial =
        (.error (.raised (.unhashable "dict")), after) ∧
      World.initial.Untouched after := by
  have reached : World.initial.Reached Figures.program 0 := ⟨_, _, .initial, .refl _ _⟩
  have fit : labelled.2.fits Figures.program labelled.1 = true := rfl
  have used : ∀ ref ∈ labelled.2.references, ref.place < World.initial.heap.size := by decide
  rcases ran : (Encode.value Figures.program ⟨0⟩ labelled.1 labelled.2).run World.initial with
    ⟨result, after⟩
  have failed : ((Encode.value Figures.program ⟨0⟩ labelled.1 labelled.2).run World.initial).1 =
      .error (.raised (.unhashable "dict")) := by cbv
  rw [ran] at failed
  subst failed
  exact ⟨after, rfl, ((World.Reached.encoding_fails_exactly honest reached fit used).2 _ _ ran).1⟩

end Figures

end HostBridge
