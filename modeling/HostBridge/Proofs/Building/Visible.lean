import HostBridge.Proofs.Codec.Encoding
import HostBridge.Proofs.Equality.Hashing

/-!
# What encoding comes to see of a value

Encoding walks through a value and stops at registered structs, which are wrapped as they are.  It
fails for two reasons only: it comes to a value of a sealed type, or to a map with a key whose object
has no projection.  Both are said here of the value itself.
-/

namespace HostBridge

namespace HostValue

/-- A value that is encoded as an object without parts. -/
def Scalar : HostValue → Prop
  | .unit | .bool _ | .int _ | .single _ | .double _ | .complexSingle _ _ | .complexDouble _ _
  | .text _ | .bytes _ | .absent => True
  | _ => False

variable {program : Program} {value : HostValue} {values : List HostValue}
  {entry : HostValue × HostValue} {entries : List (HostValue × HostValue)}

theorem fits_of_mem {element : HostType} (fit : fitsEach program element values = true)
    (member : value ∈ values) : value.fits program element = true := by
  induction values with
  | nil => cases member
  | cons first rest ih =>
    simp only [fitsEach, Bool.and_eq_true] at fit
    rcases List.mem_cons.mp member with rfl | later
    · exact fit.1
    · exact ih fit.2 later

theorem fits_of_mem_zip {types : List HostType} {part : HostType × HostValue}
    (fit : fitsAll program types values = true) (member : part ∈ types.zip values) :
    part.2.fits program part.1 = true := by
  induction types generalizing values with
  | nil => cases member
  | cons type types ih =>
    cases values with
    | nil => cases member
    | cons first rest =>
      simp only [fitsAll, Bool.and_eq_true] at fit
      rcases List.mem_cons.mp member with rfl | later
      · exact fit.1
      · exact ih fit.2 later

theorem fits_of_mem_entries {key content : HostType}
    (fit : fitsEntries program key content entries = true) (member : entry ∈ entries) :
    entry.1.fits program key = true ∧ entry.2.fits program content = true := by
  induction entries with
  | nil => cases member
  | cons first rest ih =>
    simp only [fitsEntries, Bool.and_eq_true] at fit
    rcases List.mem_cons.mp member with rfl | later
    · exact fit.1
    · exact ih fit.2 later

theorem references_subset_of_mem (member : value ∈ values) :
    value.references ⊆ referencesAll values := by
  induction values with
  | nil => cases member
  | cons first rest ih =>
    intro ref found
    rw [referencesAll, List.mem_append]
    rcases List.mem_cons.mp member with rfl | later
    · exact .inl found
    · exact .inr (ih later found)

theorem references_subset_of_mem_entries (member : entry ∈ entries) :
    entry.1.references ++ entry.2.references ⊆ referencesEntries entries := by
  induction entries with
  | nil => cases member
  | cons first rest ih =>
    intro ref found
    rw [referencesEntries, List.mem_append]
    rcases List.mem_cons.mp member with rfl | later
    · exact .inl found
    · exact .inr (ih later found)

end HostValue

namespace Encode

section

variable (program : Program) (heap : Heap) (registered : StructId → Prop)

/-- One value is encoded in the course of encoding another one. -/
inductive Inside : HostType × HostValue → HostType × HostValue → Prop
  | element {element : HostType} {values : List HostValue} {value : HostValue}
    (member : value ∈ values) : Inside (.seq element, .seq values) (element, value)
  | key {order : MapOrder} {key value : HostType} {entries : List (HostValue × HostValue)}
    {entry : HostValue × HostValue} (member : entry ∈ entries) :
    Inside (.map order key value, .map entries) (key, entry.1)
  | content {order : MapOrder} {key value : HostType} {entries : List (HostValue × HostValue)}
    {entry : HostValue × HostValue} (member : entry ∈ entries) :
    Inside (.map order key value, .map entries) (value, entry.2)
  | field {id : StructId} {values : List HostValue} {entry : FieldDecl × HostValue}
    (plain : ¬registered id) (member : entry ∈ (program.struct id).fields.zip values)
    (exported : entry.1.exported = true) :
    Inside (.struct id, .struct values) (entry.1.type, entry.2)
  | boxed {element : HostType} {value : HostValue} :
    Inside (.boxed element, .boxed value) (element, value)
  | present {element : HostType} {value : HostValue} :
    Inside (.optional element, .present value) (element, value)
  | component {types : List HostType} {values : List HostValue} {part : HostType × HostValue}
    (member : part ∈ types.zip values) : Inside (.tuple types, .tuple values) part

/-- A part of a value that encoding comes to see. -/
def Visible : HostType × HostValue → HostType × HostValue → Prop :=
  Relation.ReflTransGen (Inside program registered)

/-- The object for a value has a projection. -/
inductive Hashes : HostType → HostValue → Prop
  | scalar {type : HostType} {value : HostValue} (scalar : value.Scalar) : Hashes type value
  | wrapper {id : StructId} {values : List HostValue} (wrapped : registered id) :
    Hashes (.struct id) (.struct values)
  | boxed {element : HostType} {value : HostValue} (inner : Hashes element value) :
    Hashes (.boxed element) (.boxed value)
  | present {element : HostType} {value : HostValue} (inner : Hashes element value) :
    Hashes (.optional element) (.present value)
  | tuple {types : List HostType} {values : List HostValue}
    (each : ∀ part ∈ types.zip values, Hashes part.1 part.2) :
    Hashes (.tuple types) (.tuple values)
  | object {ref : Ref} (hashable : heap.Hashable ref) : Hashes .object (.object ref)
  | keywords {ref : Ref} (hashable : heap.Hashable ref) : Hashes .keywords (.keywords (some ref))

/-- Nothing about a part itself makes encoding fail. -/
structure Bearable (part : HostType × HostValue) : Prop where
  unsealed : ∀ id, part.1 ≠ .sealed id
  keys : ∀ order key value entries, part = (.map order key value, .map entries) →
    ∀ entry ∈ entries, Hashes heap registered key entry.1

/-- Nothing about what encoding comes to see of a value makes it fail. -/
def Fine (whole : HostType × HostValue) : Prop :=
  ∀ part, Visible program registered whole part → Bearable heap registered part

/-- What is to blame for a fault. -/
inductive Blames (whole : HostType × HostValue) : Fault → Prop
  | sealed {id : SealedId} {value : HostValue}
    (visible : Visible program registered whole (.sealed id, value)) :
    Blames whole (.panicked (.noRuntimeForm (program.typeName (.sealed id))))
  | unhashable {order : MapOrder} {key value : HostType} {entries : List (HostValue × HostValue)}
    {entry : HostValue × HostValue} {name : String}
    (visible : Visible program registered whole (.map order key value, .map entries))
    (member : entry ∈ entries) (refused : ¬Hashes heap registered key entry.1) :
    Blames whole (.raised (.unhashable name))

end

variable {program : Program} {heap : Heap} {registered : StructId → Prop}
  {whole part : HostType × HostValue}

/-- A part is of its type, if the whole is. -/
theorem Inside.fits (inside : Inside program registered whole part)
    (fit : whole.2.fits program whole.1 = true) : part.2.fits program part.1 = true := by
  cases inside with
  | element member => exact HostValue.fits_of_mem fit member
  | key member => exact (HostValue.fits_of_mem_entries fit member).1
  | content member => exact (HostValue.fits_of_mem_entries fit member).2
  | @field id values entry plain member exported =>
    have there : (entry.1.type, entry.2) ∈
        ((program.struct id).fields.map (·.type)).zip values := by
      rw [List.zip_map_left]
      exact List.mem_map.mpr ⟨entry, member, rfl⟩
    exact HostValue.fits_of_mem_zip fit there
  | boxed => exact fit
  | present => exact fit
  | component member => exact HostValue.fits_of_mem_zip fit member

theorem Inside.references_subset (inside : Inside program registered whole part) :
    part.2.references ⊆ whole.2.references := by
  cases inside with
  | element member => exact HostValue.references_subset_of_mem member
  | key member =>
    exact fun ref found => HostValue.references_subset_of_mem_entries member
      (List.mem_append_left _ found)
  | content member =>
    exact fun ref found => HostValue.references_subset_of_mem_entries member
      (List.mem_append_right _ found)
  | field plain member exported =>
    exact HostValue.references_subset_of_mem (List.of_mem_zip member).2
  | boxed => exact fun _ found => found
  | present => exact fun _ found => found
  | component member => exact HostValue.references_subset_of_mem (List.of_mem_zip member).2

theorem Visible.fits (visible : Visible program registered whole part)
    (fit : whole.2.fits program whole.1 = true) : part.2.fits program part.1 = true := by
  induction visible with
  | refl => exact fit
  | tail _ inside ih => exact inside.fits ih

theorem Visible.references_subset (visible : Visible program registered whole part) :
    part.2.references ⊆ whole.2.references := by
  induction visible with
  | refl => exact fun _ found => found
  | tail _ inside ih => exact fun _ found => ih (inside.references_subset found)

/-- A value is fine if its parts are and nothing is wrong with itself. -/
theorem Fine.of_parts (bearable : Bearable heap registered whole)
    (parts : ∀ part, Inside program registered whole part → Fine program heap registered part) :
    Fine program heap registered whole := by
  intro part visible
  rcases Relation.ReflTransGen.cases_head visible with rfl | ⟨first, inside, later⟩
  · exact bearable
  · exact parts first inside part later

theorem Fine.inside (fine : Fine program heap registered whole)
    (visible : Visible program registered whole part) : Fine program heap registered part :=
  fun inner later => fine inner (visible.trans later)

theorem Fine.of_scalar {type : HostType} {value : HostValue} (scalar : value.Scalar)
    (fit : value.fits program type = true) : Fine program heap registered (type, value) := by
  refine .of_parts ⟨fun id same => ?_, fun order key content entries same => ?_⟩ fun part inside => ?_
  · obtain rfl : type = .sealed id := same
    cases value <;> first | exact scalar.elim | cases fit
  · cases same
    exact scalar.elim
  · cases inside <;> exact scalar.elim

/-- What is to blame for a fault is seen from further outside, too. -/
theorem Blames.outside {fault : Fault} (blames : Blames program heap registered part fault)
    (inside : Inside program registered whole part) :
    Blames program heap registered whole fault := by
  cases blames with
  | sealed visible => exact .sealed (.head inside visible)
  | unhashable visible member refused => exact .unhashable (.head inside visible) member refused

/-- A value for which something is to blame is not fine. -/
theorem Blames.not_fine {fault : Fault} (blames : Blames program heap registered whole fault) :
    ¬Fine program heap registered whole := by
  intro fine
  cases blames with
  | sealed visible => exact (fine _ visible).unsealed _ rfl
  | unhashable visible member refused => exact refused ((fine _ visible).keys _ _ _ _ rfl _ member)

end Encode

end HostBridge
