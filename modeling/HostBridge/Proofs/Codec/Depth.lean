import Mathlib
import HostBridge.Proofs.Codec.Reading

/-!
# How deep reading leads

Reading a struct from a dict may lead to further dicts, and `Decode.struct` is
told how many of them may lie in each other.  `Decode.depth` is enough: whatever
can be read with more can be read with as many, and comes out the same.

For a struct and an object, whether the one can be read from the other does not
depend on the value that it is merged into.  So the pairs for which this works
form a set at every depth.  The sets grow, each is determined by the one before,
and all of them lie in a finite one, so they stop growing in as many steps as
that has members.
-/

namespace HostBridge

/-! ## Outcomes that are kept -/

namespace Refusal

variable {α β ι : Type}

/-- What the first computation yields, the second yields as well. -/
def Keeps (first second : Except Refusal α) : Prop :=
  ∀ value, first = .ok value → second = .ok value

namespace Keeps

theorem refl (result : Except Refusal α) : Keeps result result := fun _ reached => reached

theorem bind {first second : Except Refusal α} {f g : α → Except Refusal β}
    (keeps : Keeps first second) (rest : ∀ value, Keeps (f value) (g value)) :
    Keeps (first >>= f) (second >>= g) := by
  intro result reached
  obtain ⟨value, made, later⟩ := exists_of_bind_eq_ok reached
  rw [keeps value made]
  exact rest value result later

theorem within {first second : Except Refusal α} (keeps : Keeps first second) (place : String) :
    Keeps (Refusal.within place first) (Refusal.within place second) := by
  intro value reached
  rw [keeps value (eq_ok_of_within reached), within_ok]

theorem mapM {items : List ι} {f g : ι → Except Refusal α}
    (each : ∀ item, Keeps (f item) (g item)) :
    Keeps (items.mapM f) (items.mapM g) := by
  induction items with
  | nil => exact refl _
  | cons item rest ih =>
    rw [List.mapM_cons, List.mapM_cons]
    exact (each item).bind fun value => ih.bind fun values => refl _

theorem foldlM {items : List ι} {f g : β → ι → Except Refusal β}
    (each : ∀ item state, Keeps (f state item) (g state item)) (state : β) :
    Keeps (items.foldlM f state) (items.foldlM g state) := by
  induction items generalizing state with
  | nil => exact refl _
  | cons item rest ih =>
    rw [List.foldlM_cons, List.foldlM_cons]
    exact (each item state).bind ih

end Keeps

end Refusal

namespace Decode

open Refusal

variable {program : Program} {heap : Heap} {structs structs' : Structs}

/-! ## Reading in another way -/

/-- If the first way of reading works for some value of the type to merge into, the second works for
every one, and the same comes out for the same. -/
def Transfers (program : Program) (type : HostType)
    (first second : HostValue → Except Refusal HostValue) : Prop :=
  ∀ old new, old.fits program type = true → first old = .ok new →
    ∀ old', old'.fits program type = true →
      ∃ new', second old' = .ok new' ∧ (old' = old → new' = new)

/-- Structs that are read in the first way are read in the second. -/
def Covers (program : Program) (structs structs' : Structs) : Prop :=
  ∀ id ref, Transfers program (.struct id) (structs id ref) (structs' id ref)

/-- Where the old value plays no part, keeping outcomes is enough. -/
theorem Transfers.of_keeps {type : HostType} {first second : HostValue → Except Refusal HostValue}
    (keeps : ∀ old old', Keeps (first old) (second old')) : Transfers program type first second :=
  fun old new _ reached old' _ => ⟨new, keeps old old' new reached, fun _ => rfl⟩

/-- A zero value is merged into as before. -/
theorem Transfers.keeps_zero {type : HostType} {first second : HostValue → Except Refusal HostValue}
    (founded : program.Founded) (transfers : Transfers program type first second) :
    Keeps (first (program.zero type)) (second (program.zero type)) := by
  intro value reached
  have fit := program.fits_zero founded type
  obtain ⟨again, reached', same⟩ := transfers _ value fit reached _ fit
  rw [reached', same rfl]

mutual

theorem transfers_valueWith (founded : program.Founded) (covers : Covers program structs structs') :
    ∀ (type : HostType) (ref : Ref), Transfers program type
      (valueWith program heap structs type ref) (valueWith program heap structs' type ref)
  | .seq element, ref => .of_keeps fun _ _ => by
    simp only [valueWith]
    cases heap.items? ref with
    | none => exact .refl _
    | some items =>
      refine Keeps.bind (.mapM fun entry => ?_) fun _ => .refl _
      exact ((transfers_valueWith founded covers element entry.1).keeps_zero founded).within _
  | .map order key value, ref => .of_keeps fun _ _ => by
    simp only [valueWith]
    cases heap.dict? ref with
    | none => exact .refl _
    | some table =>
      refine Keeps.bind (.foldlM (fun entry state => ?_) []) fun _ => .refl _
      have keys := (transfers_valueWith founded covers key entry.key).keeps_zero founded
      have values := (transfers_valueWith founded covers value entry.value).keeps_zero founded
      exact (keys.within _).bind fun _ => (values.within _).bind fun _ => .refl _
  | .struct id, ref => covers id ref
  | .boxed element, ref => by
    intro old new fit reached old' fit'
    obtain ⟨before, rfl, fit⟩ := HostValue.fits_boxed_iff.mp fit
    obtain ⟨before', rfl, fit'⟩ := HostValue.fits_boxed_iff.mp fit'
    simp only [valueWith] at reached ⊢
    obtain ⟨inner, read, last⟩ := exists_of_bind_eq_ok reached
    cases last
    obtain ⟨inner', read', same⟩ :=
      transfers_valueWith founded covers element ref before inner fit read before' fit'
    refine ⟨.boxed inner', by rw [read']; rfl, fun equal => ?_⟩
    rw [same (HostValue.boxed.inj equal)]
  | .optional element, ref => .of_keeps fun _ _ => by
    simp only [valueWith]
    split
    · exact .refl _
    · exact ((transfers_valueWith founded covers element ref).keeps_zero founded).bind
        fun _ => .refl _
  | .tuple elements, ref => .of_keeps fun _ _ => by
    simp only [valueWith]
    cases heap.items? ref with
    | none => exact .refl _
    | some items =>
      dsimp only
      split
      · exact (keeps_elementsWith founded covers elements items 0).bind fun _ => .refl _
      · exact .refl _
  | .float width, ref | .complex width, ref => .of_keeps fun _ _ => by
    cases width <;> exact .refl _
  | .unit, ref | .bool, ref | .int _, ref | .text, ref | .bytes, ref | .object, ref
  | .keywords, ref | .sealed _, ref => .of_keeps fun _ _ => .refl _

theorem keeps_elementsWith (founded : program.Founded) (covers : Covers program structs structs') :
    ∀ (types : List HostType) (items : List Ref) (index : Nat),
      Keeps (elementsWith program heap structs types items index)
        (elementsWith program heap structs' types items index)
  | [], items, index => by
    simp only [elementsWith]
    exact .refl _
  | type :: types, [], index => by
    simp only [elementsWith]
    exact .refl _
  | type :: types, item :: items, index => by
    simp only [elementsWith]
    have first := (transfers_valueWith founded covers type item).keeps_zero founded
    exact (first.within _).bind fun value =>
      (keeps_elementsWith founded covers types items (index + 1)).bind fun values => .refl _

end

/-- A field that is read in the first way, or that the dict lacks, is read in the second. -/
theorem transfers_readField (founded : program.Founded) (covers : Covers program structs structs')
    (owner : String) (table : Dict) (field : FieldDecl) :
    Transfers program field.type (readField program heap structs owner table field)
      (readField program heap structs' owner table field) := by
  intro old new fit reached old' fit'
  unfold readField at reached ⊢
  split at reached
  · rename_i ref exported mentioned
    have read : valueWith program heap structs field.type ref old = .ok new := by
      unfold refusedField at reached
      split at reached
      · cases reached
      · exact reached
    obtain ⟨new', read', same⟩ :=
      transfers_valueWith founded covers field.type ref old new fit read old' fit'
    exact ⟨new', by rw [read']; rfl, same⟩
  · cases reached
    exact ⟨old', rfl, id⟩

theorem transfers_fields (founded : program.Founded) (covers : Covers program structs structs')
    (owner : String) (table : Dict) :
    ∀ (decls : List FieldDecl) (olds values : List HostValue),
      HostValue.fitsAll program (decls.map (·.type)) olds = true →
      fields program heap structs owner table decls olds = .ok values →
        ∀ olds', HostValue.fitsAll program (decls.map (·.type)) olds' = true →
          ∃ values', fields program heap structs' owner table decls olds' = .ok values' ∧
            (olds' = olds → values' = values)
  | [], olds, values, fit, reached, olds', fit' => by
    simp only [fields] at reached ⊢
    cases reached
    exact ⟨olds', rfl, id⟩
  | field :: rest, [], values, fit, _, _, _ | field :: rest, _ :: _, values, _, _, [], fit => by
    cases fit
  | field :: rest, old :: olds, values, fit, reached, old' :: olds', fit' => by
    simp only [List.map_cons, HostValue.fitsAll, Bool.and_eq_true] at fit fit'
    rw [fields_cons] at reached
    obtain ⟨value, read, later⟩ := exists_of_bind_eq_ok reached
    obtain ⟨values, readRest, last⟩ := exists_of_bind_eq_ok later
    cases last
    obtain ⟨value', read', same⟩ :=
      transfers_readField founded covers owner table field old value fit.1 read old' fit'.1
    obtain ⟨values', readRest', sameRest⟩ :=
      transfers_fields founded covers owner table rest olds values fit.2 readRest olds' fit'.2
    refine ⟨value' :: values', ?_, fun equal => ?_⟩
    · rw [fields_cons, read']
      show (do return value' :: (← fields program heap structs' owner table rest olds')) = _
      rw [readRest']
      rfl
    · obtain ⟨first, others⟩ := List.cons.inj equal
      rw [same first, sameRest others]

/-! ## Deeper and deeper -/

variable {registry : RegistryId}

theorem transfers_of_wrapped {id : StructId} {ref : Ref} {part : HostValue} {bridged : BridgedType}
    (wrapped : heap.wrapped? ref = some (part, bridged)) (depth depth' : Nat) :
    Transfers program (.struct id) (struct program heap registry depth id ref)
      (struct program heap registry depth' id ref) := by
  refine .of_keeps fun old old' => ?_
  rw [struct_of_wrapped wrapped, struct_of_wrapped wrapped]
  exact .refl _

/-- Structs inside of dicts that are read in the first way make those dicts be read in the second. -/
theorem covers_succ (founded : program.Founded) {depth depth' : Nat}
    (covers : Covers program (struct program heap registry depth)
      (struct program heap registry depth')) :
    Covers program (struct program heap registry (depth + 1))
      (struct program heap registry (depth' + 1)) := by
  intro id ref old new fit reached old' fit'
  rcases struct_cases fit reached with ⟨bridged, wrapped, _, _⟩ |
    ⟨below, table, olds, values, same, plain, body, rfl, each, read, rfl⟩
  · exact transfers_of_wrapped wrapped _ _ old new fit reached old' fit'
  · obtain rfl := Nat.succ.inj same
    obtain ⟨olds', rfl, fit'⟩ := HostValue.fits_struct_iff.mp fit'
    obtain ⟨values', read', same⟩ :=
      transfers_fields founded covers _ table _ olds values each read olds' fit'
    rw [struct_of_dict plain body, read']
    refine ⟨.struct values', rfl, fun equal => ?_⟩
    rw [same (HostValue.struct.inj equal)]

/-- More depth covers less. -/
theorem covers_of_le (founded : program.Founded) {depth depth' : Nat} (deeper : depth ≤ depth') :
    Covers program (struct program heap registry depth) (struct program heap registry depth') := by
  induction depth generalizing depth' with
  | zero =>
    intro id ref old new fit reached
    rcases struct_cases fit reached with ⟨_, wrapped, _⟩ | ⟨_, _, _, _, impossible, _⟩
    · exact transfers_of_wrapped wrapped _ _ old new fit reached
    · cases impossible
  | succ depth ih =>
    obtain ⟨above, rfl⟩ := Nat.exists_eq_add_of_le' deeper
    exact covers_succ founded (ih (Nat.le_add_left depth above))

/-! ## Deep enough -/

variable (program heap registry) in
/-- The pairs of a declared struct and an object that the struct is read from. -/
def readable (depth : Nat) : Set (StructId × Ref) :=
  {pair | pair.1.index < program.structs.length ∧ pair.2.place < heap.size ∧
    ∃ old new, old.fits program (.struct pair.1) = true ∧
      struct program heap registry depth pair.1 pair.2 old = .ok new}

theorem readable_mono (founded : program.Founded) {depth depth' : Nat} (deeper : depth ≤ depth') :
    readable program heap registry depth ⊆ readable program heap registry depth' := by
  rintro ⟨id, ref⟩ ⟨declared, used, old, new, fit, reached⟩
  obtain ⟨new', reached', _⟩ := covers_of_le founded deeper id ref old new fit reached old fit
  exact ⟨declared, used, old, new', fit, reached'⟩

variable (program heap) in
/-- All pairs of a declared struct and an object. -/
def pairs : Finset (StructId × Ref) :=
  (Finset.range program.structs.length ×ˢ Finset.range heap.size).image
    fun pair => (⟨pair.1⟩, ⟨pair.2⟩)

theorem readable_subset_pairs (depth : Nat) :
    readable program heap registry depth ⊆ pairs program heap := by
  rintro ⟨id, ref⟩ ⟨declared, used, _⟩
  exact Finset.mem_coe.mpr (Finset.mem_image.mpr ⟨(id.index, ref.place), by simp [*], rfl⟩)

theorem finite_readable (depth : Nat) : (readable program heap registry depth).Finite :=
  (pairs program heap).finite_toSet.subset (readable_subset_pairs depth)

theorem ncard_readable_le (depth : Nat) :
    (readable program heap registry depth).ncard ≤ program.structs.length * heap.size := by
  have subset : readable program heap registry depth ⊆ pairs program heap :=
    readable_subset_pairs depth
  have bounded := Set.ncard_le_ncard subset (pairs program heap).finite_toSet
  rw [Set.ncard_coe_finset] at bounded
  refine bounded.trans (Finset.card_image_le.trans ?_)
  rw [Finset.card_product, Finset.card_range, Finset.card_range]

/-- When no pair is added by one more step, the step adds nothing at all. -/
theorem covers_of_readable (founded : program.Founded) {depth : Nat}
    (settled : readable program heap registry (depth + 2) ⊆
      readable program heap registry (depth + 1)) :
    Covers program (struct program heap registry (depth + 2))
      (struct program heap registry (depth + 1)) := by
  intro id ref old new fit reached old' fit'
  rcases struct_cases fit reached with ⟨_, wrapped, _⟩ |
    ⟨_, table, olds, values, _, plain, body, rfl, _, _, rfl⟩
  · exact transfers_of_wrapped wrapped _ _ old new fit reached old' fit'
  · by_cases declared : id.index < program.structs.length
    · have used : ref.place < heap.size := by
        obtain ⟨cell, present, _⟩ := Heap.exists_cell_of_body (Heap.dict?_eq_some body) nofun
        exact Heap.place_lt_size present
      obtain ⟨_, _, before, now, beforeFit, shallow⟩ :=
        settled (a := (id, ref)) ⟨declared, used, _, _, fit, reached⟩
      obtain ⟨new', shallow', _⟩ :=
        covers_of_le founded (Nat.le_refl (depth + 1)) id ref before now beforeFit shallow old' fit'
      refine ⟨new', shallow', ?_⟩
      rintro rfl
      -- At the greater depth the same comes out, since the lesser one is covered by it.
      obtain ⟨again, deep, same⟩ :=
        covers_of_le founded (Nat.le_succ (depth + 1)) id ref _ new' fit' shallow' _ fit'
      rw [reached, same rfl] at deep
      exact (Except.ok.inj deep).symm
    · obtain ⟨olds', rfl, _⟩ := HostValue.fits_struct_iff.mp fit'
      simp only [struct_of_dict plain body, Program.fields_of_undeclared declared, fields]
        at reached ⊢
      cases reached
      exact ⟨.struct olds', rfl, fun same => same⟩

/-- More depth than `Decode.depth` adds nothing. -/
theorem covers_depth (founded : program.Founded) (registry : RegistryId) :
    Covers program (struct program heap registry (depth program heap + 1))
      (struct program heap registry (depth program heap)) := by
  let size := fun depth => (readable program heap registry (depth + 1)).ncard
  have grows : Monotone size := fun less more above =>
    Set.ncard_le_ncard (readable_mono founded (Nat.succ_le_succ above)) (finite_readable _)
  have settles : ∀ depth, size depth = size (depth + 1) →
      Covers program (struct program heap registry (depth + 2))
        (struct program heap registry (depth + 1)) := fun depth same =>
    covers_of_readable founded (Set.eq_of_subset_of_ncard_le
      (readable_mono founded (Nat.le_succ _)) same.ge (finite_readable _)).superset
  have stays : ∀ depth, size depth = size (depth + 1) → size (depth + 1) = size (depth + 2) := by
    intro depth same
    have covers := covers_succ founded (settles depth same)
    refine congrArg Set.ncard (Set.Subset.antisymm (readable_mono founded (Nat.le_succ _)) ?_)
    rintro ⟨id, ref⟩ ⟨declared, used, old, new, fit, reached⟩
    obtain ⟨new', reached', _⟩ := covers id ref old new fit reached old fit
    exact ⟨declared, used, old, new', fit, reached'⟩
  have bound : ∀ depth, size depth ≤ program.structs.length * heap.size := fun depth =>
    ncard_readable_le _
  obtain ⟨below, deep, enough⟩ : ∃ below, depth program heap = below + 1 ∧
      program.structs.length * heap.size ≤ below := by
    refine ⟨depth program heap - 1, ?_, ?_⟩ <;> unfold depth
    · exact (Nat.sub_add_cancel (Nat.mul_pos (Nat.succ_pos _) (Nat.succ_pos _))).symm
    · rw [Nat.add_mul, Nat.mul_add]
      omega
  rw [deep]
  refine settles below ?_
  rw [Nat.stabilises_of_monotone grows bound stays enough,
    Nat.stabilises_of_monotone grows bound stays (enough.trans (Nat.le_succ below))]

end Decode

end HostBridge
