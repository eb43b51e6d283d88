import HostBridge.Host.Program
import Mathlib.Data.List.Basic

/-!
# Values of a type

`HostValue.fits` says which values a host type has.  Two facts matter to the
bridge.  The zero value of every type is one of its values, provided that no
struct holds itself directly.  And a type says where the places inside its
values are: every value has the places that its type names, what lies there is
a value of the type of the place, and writing such a value keeps the whole one
of its type.
-/

namespace HostBridge

namespace HostValue

variable (program : Program)

mutual

/-- Whether a value is one of a type. -/
def fits : HostType → HostValue → Bool
  | .unit, .unit => true
  | .bool, .bool _ => true
  | .int kind, .int value => kind.holds value
  | .float .single, .single _ => true
  | .float .double, .double _ => true
  | .complex .single, .complexSingle _ _ => true
  | .complex .double, .complexDouble _ _ => true
  | .text, .text _ => true
  | .bytes, .bytes _ => true
  | .seq element, .seq values => fitsEach element values
  | .map _ key value, .map entries => fitsEntries key value entries
  | .struct id, .struct values => fitsAll ((program.struct id).fields.map (·.type)) values
  | .boxed element, .boxed value => fits element value
  | .optional _, .absent => true
  | .optional element, .present value => fits element value
  | .tuple types, .tuple values => fitsAll types values
  | .object, .object _ => true
  | .keywords, .keywords _ => true
  | .sealed _, .sealed _ => true
  | _, _ => false

/-- Whether all values of a list are of one type. -/
def fitsEach : HostType → List HostValue → Bool
  | _, [] => true
  | type, value :: values => fits type value && fitsEach type values

/-- Whether the values of a list are of the types of another, one by one. -/
def fitsAll : List HostType → List HostValue → Bool
  | [], [] => true
  | type :: types, value :: values => fits type value && fitsAll types values
  | _, _ => false

/-- Whether all entries of a map have keys and values of two types. -/
def fitsEntries : HostType → HostType → List (HostValue × HostValue) → Bool
  | _, _, [] => true
  | keyType, valueType, (key, value) :: entries =>
    fits keyType key && fits valueType value && fitsEntries keyType valueType entries

end

variable {program}

/-- A position with a type has a value of that type. -/
theorem fitsAll_getElem? {types : List HostType} {values : List HostValue} {index : Nat}
    {type : HostType} (fit : fitsAll program types values = true)
    (typed : types[index]? = some type) :
    ∃ value, values[index]? = some value ∧ fits program type value = true := by
  induction types generalizing values index with
  | nil => simp at typed
  | cons head types ih =>
    cases values with
    | nil => simp [fitsAll] at fit
    | cons value values =>
      simp only [fitsAll, Bool.and_eq_true] at fit
      cases index with
      | zero =>
        simp only [List.getElem?_cons_zero, Option.some.injEq] at typed
        subst typed
        exact ⟨value, rfl, fit.1⟩
      | succ index =>
        obtain ⟨found, reading, foundFit⟩ := ih fit.2 (by simpa using typed)
        exact ⟨found, by simpa using reading, foundFit⟩

/-- A value may be replaced by another one of the type of its position. -/
theorem fitsAll_set {types : List HostType} {values : List HostValue} {index : Nat}
    {type : HostType} {new : HostValue} (fit : fitsAll program types values = true)
    (typed : types[index]? = some type) (newFit : fits program type new = true) :
    fitsAll program types (values.set index new) = true := by
  induction types generalizing values index with
  | nil => simp at typed
  | cons head types ih =>
    cases values with
    | nil => simp [fitsAll] at fit
    | cons value values =>
      simp only [fitsAll, Bool.and_eq_true] at fit
      cases index with
      | zero =>
        simp only [List.getElem?_cons_zero, Option.some.injEq] at typed
        subst typed
        simp [fitsAll, newFit, fit.2]
      | succ index =>
        simp [fitsAll, fit.1, ih fit.2 (by simpa using typed)]

variable (program) in
/-- What a value says about a type that it is one of. -/
def Shapes (type : HostType) : HostValue → Prop
  | .unit => type = .unit
  | .bool _ => type = .bool
  | .int value => ∃ kind, type = .int kind ∧ kind.holds value = true
  | .single _ => type = .float .single
  | .double _ => type = .float .double
  | .complexSingle _ _ => type = .complex .single
  | .complexDouble _ _ => type = .complex .double
  | .text _ => type = .text
  | .bytes _ => type = .bytes
  | .seq values => ∃ element, type = .seq element ∧ fitsEach program element values = true
  | .map entries => ∃ order key value, type = .map order key value ∧
      fitsEntries program key value entries = true
  | .struct values => ∃ id, type = .struct id ∧
      fitsAll program ((program.struct id).fields.map (·.type)) values = true
  | .boxed value => ∃ element, type = .boxed element ∧ fits program element value = true
  | .absent => ∃ element, type = .optional element
  | .present value => ∃ element, type = .optional element ∧ fits program element value = true
  | .tuple values => ∃ types, type = .tuple types ∧ fitsAll program types values = true
  | .object _ => type = .object
  | .keywords _ => type = .keywords
  | .sealed _ => ∃ id, type = .sealed id

/-- A value is one of a type that is of the shape that the value asks for. -/
theorem shapes_of_fits {type : HostType} {value : HostValue}
    (fit : fits program type value = true) : value.Shapes program type := by
  cases type with
  | float width | complex width => cases width <;> cases value <;> first | exact rfl | cases fit
  | _ => cases value <;> simp_all [fits, Shapes]

/-- Only structs fit a struct type. -/
theorem fits_struct_iff {id : StructId} {value : HostValue} :
    fits program (.struct id) value = true ↔
      ∃ fields, value = .struct fields ∧
        fitsAll program ((program.struct id).fields.map (·.type)) fields = true := by
  cases value <;> simp [fits]

/-- Only boxes fit a box type. -/
theorem fits_boxed_iff {element : HostType} {value : HostValue} :
    value.fits program (.boxed element) = true ↔
      ∃ inner, value = .boxed inner ∧ inner.fits program element = true := by
  cases value <;> simp [fits]

end HostValue

/-! ## Zero values -/

namespace HostType

mutual

/-- The structs that a value of a type holds whatever the value is: directly, in
boxes and in tuples, but not in containers that may be empty. -/
def held : HostType → List StructId
  | .struct id => [id]
  | .boxed element => element.held
  | .tuple elements => heldAll elements
  | _ => []

/-- The structs that values of a list of types hold. -/
def heldAll : List HostType → List StructId
  | [] => []
  | type :: types => type.held ++ heldAll types

end

theorem mem_heldAll {id : StructId} {types : List HostType} :
    id ∈ heldAll types ↔ ∃ type ∈ types, id ∈ type.held := by
  induction types with
  | nil => simp [heldAll]
  | cons type types ih => simp [heldAll, ih]

end HostType

namespace Program

variable {program : Program}

/-- No struct holds itself, neither directly nor by way of others: structs can
be ranked so that the fields of each hold structs of a lower rank only. -/
def Founded (program : Program) : Prop :=
  ∃ rank : StructId → Nat, ∀ id, ∀ field ∈ (program.struct id).fields,
    ∀ inner ∈ field.type.held, rank inner < rank id

mutual

theorem fits_zeroWith {structs : StructId → HostValue} : ∀ (type : HostType),
    (∀ id ∈ type.held, (structs id).fits program (.struct id) = true) →
      (zeroWith structs type).fits program type = true
  | .unit, _ | .bool, _ | .text, _ | .bytes, _ | .seq _, _ | .map _ _ _, _ | .optional _, _
  | .object, _ | .keywords, _ | .sealed _, _ => by
    simp [zeroWith, HostValue.fits, HostValue.fitsEach, HostValue.fitsEntries]
  | .int kind, _ => by simp [zeroWith, HostValue.fits]
  | .float width, _ => by cases width <;> simp [zeroWith, HostValue.fits]
  | .complex width, _ => by cases width <;> simp [zeroWith, HostValue.fits]
  | .struct id, inner => inner id (by simp [HostType.held])
  | .boxed element, inner => by
    simpa [zeroWith, HostValue.fits] using fits_zeroWith element inner
  | .tuple elements, inner => by
    simpa [zeroWith, HostValue.fits] using fitsAll_zeroAllWith elements inner

theorem fitsAll_zeroAllWith {structs : StructId → HostValue} : ∀ (types : List HostType),
    (∀ id ∈ HostType.heldAll types, (structs id).fits program (.struct id) = true) →
      HostValue.fitsAll program types (zeroAllWith structs types) = true
  | [], _ => by simp [zeroAllWith, HostValue.fitsAll]
  | type :: types, inner => by
    simp only [zeroAllWith, HostValue.fitsAll, Bool.and_eq_true]
    exact ⟨fits_zeroWith type fun id member => inner id (by simp [HostType.heldAll, member]),
      fitsAll_zeroAllWith types fun id member => inner id (by simp [HostType.heldAll, member])⟩

end

theorem zeroAllWith_eq_map (structs : StructId → HostValue) (types : List HostType) :
    zeroAllWith structs types = types.map (zeroWith structs) := by
  induction types with
  | nil => rfl
  | cons type types ih => simp [zeroAllWith, ih]

/-- The zero value of a struct holds the zero values of its fields. -/
theorem zeroStruct_succ (program : Program) (depth : Nat) (id : StructId) :
    program.zeroStruct (depth + 1) id = .struct
      (zeroAllWith (program.zeroStruct depth) ((program.struct id).fields.map (·.type))) := by
  rw [zeroStruct, zeroAllWith_eq_map, List.map_map]
  rfl

/-- The declared structs of a lower rank than a given one. -/
def lower (program : Program) (rank : StructId → Nat) (id : StructId) : List Nat :=
  (List.range program.structs.length).filter fun other => rank ⟨other⟩ < rank id

theorem lower_lt (program : Program) {rank : StructId → Nat} {inner outer : StructId}
    (declared : inner.index < program.structs.length) (below : rank inner < rank outer) :
    (program.lower rank inner).length < (program.lower rank outer).length := by
  have part : (program.lower rank inner).Sublist (program.lower rank outer) :=
    List.monotone_filter_right _ fun other => by
      simp only [decide_eq_true_eq]
      omega
  refine Nat.lt_of_le_of_ne part.length_le fun equal => ?_
  have same := part.eq_of_length equal
  have member : inner.index ∈ program.lower rank outer := by
    simp [lower, declared, below]
  rw [← same] at member
  simp [lower] at member

theorem fields_of_undeclared {id : StructId} (undeclared : ¬id.index < program.structs.length) :
    (program.struct id).fields = [] := by
  have missing : program.structs[id.index]? = none := by
    rw [List.getElem?_eq_none_iff]
    omega
  simp only [struct, missing, Option.getD_none]
  rfl

/-- The zero value of a struct is found in more steps than there are declared
structs of a lower rank. -/
theorem fits_zeroStruct {rank : StructId → Nat}
    (founded : ∀ id, ∀ field ∈ (program.struct id).fields, ∀ inner ∈ field.type.held,
      rank inner < rank id) (depth : Nat) (id : StructId)
    (enough : id.index < program.structs.length → (program.lower rank id).length < depth) :
    (program.zeroStruct depth id).fits program (.struct id) = true := by
  induction depth generalizing id with
  | zero =>
    have undeclared : ¬id.index < program.structs.length := fun declared =>
      absurd (enough declared) (Nat.not_lt_zero _)
    simp [zeroStruct, HostValue.fits, fields_of_undeclared undeclared, HostValue.fitsAll]
  | succ depth ih =>
    rw [zeroStruct_succ, HostValue.fits]
    refine fitsAll_zeroAllWith _ fun inner member => ih inner fun declared => ?_
    have ranked : rank inner < rank id := by
      obtain ⟨type, typed, held⟩ := HostType.mem_heldAll.mp member
      obtain ⟨field, member, rfl⟩ := List.mem_map.mp typed
      exact founded id field member inner held
    have fewer := lower_lt program declared ranked
    by_cases outer : id.index < program.structs.length
    · have := enough outer
      omega
    · simp [fields_of_undeclared outer, HostType.heldAll] at member

/-- The zero value of every type is one of its values. -/
theorem fits_zero (founded : program.Founded) (type : HostType) :
    (program.zero type).fits program type = true := by
  obtain ⟨rank, ranked⟩ := founded
  refine fits_zeroWith type fun id _ => fits_zeroStruct ranked _ id fun declared => ?_
  -- The struct itself is not among those of a lower rank.
  have part : (program.lower rank id).length ≤ (List.range program.structs.length).length :=
    List.length_filter_le _ _
  rw [List.length_range] at part
  refine Nat.lt_of_le_of_ne part fun equal => ?_
  have all := (List.length_filter_eq_length_iff (l := List.range program.structs.length)).mp
    (by rw [List.length_range]; exact equal) id.index (by simpa using declared)
  simp at all

/-! ## Places -/

/-- The type of the place at a path of field positions. -/
def typeAt? (program : Program) : HostType → List Nat → Option HostType
  | type, [] => some type
  | .struct id, index :: path =>
    match (program.struct id).fields[index]? with
    | some field => typeAt? program field.type path
    | none => none
  | _, _ :: _ => none

@[simp]
theorem typeAt?_nil (type : HostType) : program.typeAt? type [] = some type := by
  cases type <;> rfl

theorem typeAt?_append (type : HostType) (front back : List Nat) :
    program.typeAt? type (front ++ back) =
      (program.typeAt? type front).bind (program.typeAt? · back) := by
  induction front generalizing type with
  | nil => simp
  | cons index front ih =>
    cases type with
    | struct id =>
      simp only [List.cons_append, typeAt?]
      cases (program.struct id).fields[index]? with
      | none => rfl
      | some field => exact ih field.type
    | _ => rfl

end Program

namespace HostValue

variable {program : Program}

theorem field?_of_fits {id : StructId} {value : HostValue} {index : Nat} {field : FieldDecl}
    (fit : value.fits program (.struct id) = true)
    (declared : (program.struct id).fields[index]? = some field) :
    ∃ inner, value.field? index = some inner ∧ inner.fits program field.type = true := by
  obtain ⟨fields, rfl, all⟩ := fits_struct_iff.mp fit
  exact fitsAll_getElem? all (by simp [declared])

/-- A value has the places that its type names, with values of their types. -/
theorem at?_of_fits {type inner : HostType} {path : List Nat} {value : HostValue}
    (fit : value.fits program type = true) (place : program.typeAt? type path = some inner) :
    ∃ part, value.at? path = some part ∧ part.fits program inner = true := by
  induction path generalizing type value with
  | nil =>
    simp only [Program.typeAt?_nil, Option.some.injEq] at place
    subst place
    exact ⟨value, rfl, fit⟩
  | cons index path ih =>
    cases type with
    | struct id =>
      simp only [Program.typeAt?] at place
      cases declared : (program.struct id).fields[index]? with
      | none => simp [declared] at place
      | some field =>
        simp only [declared] at place
        obtain ⟨part, reading, partFit⟩ := field?_of_fits fit declared
        simp only [at?, reading]
        exact ih partFit place
    | _ => simp [Program.typeAt?] at place

/-- Writing a value of the type of a place keeps the type of the whole. -/
theorem fits_put {type inner : HostType} {path : List Nat} {value new : HostValue}
    (fit : value.fits program type = true) (place : program.typeAt? type path = some inner)
    (newFit : new.fits program inner = true) : (value.put path new).fits program type = true := by
  induction path generalizing type value with
  | nil =>
    simp only [Program.typeAt?_nil, Option.some.injEq] at place
    subst place
    exact newFit
  | cons index path ih =>
    cases type with
    | struct id =>
      simp only [Program.typeAt?] at place
      cases declared : (program.struct id).fields[index]? with
      | none => simp [declared] at place
      | some field =>
        simp only [declared] at place
        obtain ⟨part, reading, partFit⟩ := field?_of_fits fit declared
        obtain ⟨fields, rfl, all⟩ := fits_struct_iff.mp fit
        simp only [put, reading, setField]
        exact fits_struct_iff.mpr ⟨_, rfl, fitsAll_set all (by simp [declared]) (ih partFit place)⟩
    | _ => simp [Program.typeAt?] at place

end HostValue

end HostBridge
