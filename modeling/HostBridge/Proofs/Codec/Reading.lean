import HostBridge.Proofs.Codec.Destination
import HostBridge.Proofs.Ownership.Wrapper

/-!
# What decoding yields

A value that is read from an object of a sound world is one of the type that it
is read as, and all objects that it refers to have places in the heap.  Structs
that are read from dicts are merged into old values, which have to be such
values themselves.
-/

namespace HostBridge

/-! ## Results of computations that may be refused -/

namespace Refusal

variable {ε α β : Type}

theorem eq_ok_of_within {place : String} {result : Except Refusal α} {value : α}
    (reached : within place result = .ok value) : result = .ok value := by
  rcases result with (cause | misuse | _) | value'
  · cases reached
  · cases reached
  · cases reached
  · exact reached

theorem exists_of_bind_eq_ok {first : Except ε α} {next : α → Except ε β} {result : β}
    (reached : first >>= next = .ok result) :
    ∃ value, first = .ok value ∧ next value = .ok result := by
  cases first with
  | error failure => cases reached
  | ok value => exact ⟨value, rfl, reached⟩

/-- Every result of a list of computations is the result of one of them. -/
theorem exists_of_mem_mapM {f : α → Except ε β} {items : List α} {values : List β}
    (reached : items.mapM f = .ok values) {value : β} (member : value ∈ values) :
    ∃ item ∈ items, f item = .ok value := by
  induction items generalizing values with
  | nil =>
    rw [List.mapM_nil] at reached
    cases reached
    cases member
  | cons head tail ih =>
    rw [List.mapM_cons] at reached
    obtain ⟨first, made, later⟩ := exists_of_bind_eq_ok reached
    obtain ⟨rest, made', last⟩ := exists_of_bind_eq_ok later
    cases last
    rcases List.mem_cons.mp member with rfl | among
    · exact ⟨head, by simp, made⟩
    · obtain ⟨item, inside, made''⟩ := ih made' among
      exact ⟨item, by simp [inside], made''⟩

/-- What every step of a loop keeps holds after it. -/
theorem invariant_foldlM (holds : β → Prop) {f : β → α → Except ε β} {items : List α}
    {start result : β} (reached : items.foldlM f start = .ok result) (first : holds start)
    (keeps : ∀ item ∈ items, ∀ before after, holds before → f before item = .ok after →
      holds after) : holds result := by
  induction items generalizing start with
  | nil =>
    rw [List.foldlM_nil] at reached
    cases reached
    exact first
  | cons head tail ih =>
    rw [List.foldlM_cons] at reached
    obtain ⟨middle, made, later⟩ := exists_of_bind_eq_ok reached
    exact ih later (keeps head (by simp) start middle first made) fun item member =>
      keeps item (by simp [member])

end Refusal

/-! ## Values with places in a heap -/

namespace HostValue

variable (program : Program) (heap : Heap)

/-- A value of a type, the objects of which have places in a heap. -/
structure Valid (type : HostType) (value : HostValue) : Prop where
  fit : value.fits program type = true
  used : ∀ ref ∈ value.references, ref.place < heap.size

variable {program heap}

/-- A value without objects has places in every heap. -/
theorem Valid.of_fit {type : HostType} {value : HostValue} (fit : value.fits program type = true)
    (alone : value.references = []) : Valid program heap type value :=
  ⟨fit, fun ref member => by rw [alone] at member; cases member⟩

theorem Valid.seq {element : HostType} {values : List HostValue}
    (each : ∀ value ∈ values, Valid program heap element value) :
    Valid program heap (.seq element) (.seq values) := by
  suffices both : fitsEach program element values = true ∧
      ∀ ref ∈ referencesAll values, ref.place < heap.size from ⟨both.1, both.2⟩
  induction values with
  | nil => exact ⟨rfl, fun ref member => by cases member⟩
  | cons head tail ih =>
    have first := each head (by simp)
    obtain ⟨fit, used⟩ := ih fun value member => each value (by simp [member])
    refine ⟨by simp [fitsEach, first.fit, fit], fun ref member => ?_⟩
    rcases List.mem_append.mp member with inFirst | inRest
    · exact first.used ref inFirst
    · exact used ref inRest

theorem Valid.map {order : MapOrder} {keyType valueType : HostType}
    {entries : List (HostValue × HostValue)}
    (each : ∀ entry ∈ entries, Valid program heap keyType entry.1 ∧
      Valid program heap valueType entry.2) :
    Valid program heap (.map order keyType valueType) (.map entries) := by
  suffices both : fitsEntries program keyType valueType entries = true ∧
      ∀ ref ∈ referencesEntries entries, ref.place < heap.size from ⟨both.1, both.2⟩
  induction entries with
  | nil => exact ⟨rfl, fun ref member => by cases member⟩
  | cons head tail ih =>
    obtain ⟨key, value⟩ := head
    obtain ⟨keyValid, valueValid⟩ := each (key, value) (by simp)
    obtain ⟨fit, used⟩ := ih fun entry member => each entry (by simp [member])
    refine ⟨by simp [fitsEntries, keyValid.fit, valueValid.fit, fit], fun ref member => ?_⟩
    rcases List.mem_append.mp member with inFirst | inRest
    · rcases List.mem_append.mp inFirst with inKey | inValue
      · exact keyValid.used ref inKey
      · exact valueValid.used ref inValue
    · exact used ref inRest

/-- Values of the types of a list, one by one. -/
def ValidAll (program : Program) (heap : Heap) (types : List HostType)
    (values : List HostValue) : Prop :=
  fitsAll program types values = true ∧ ∀ ref ∈ referencesAll values, ref.place < heap.size

theorem validAll_nil : ValidAll program heap [] [] :=
  ⟨rfl, fun ref member => by cases member⟩

theorem validAll_cons {type : HostType} {types : List HostType} {value : HostValue}
    {values : List HostValue} :
    ValidAll program heap (type :: types) (value :: values) ↔
      Valid program heap type value ∧ ValidAll program heap types values := by
  constructor
  · rintro ⟨fit, used⟩
    simp only [fitsAll, Bool.and_eq_true] at fit
    simp only [referencesAll, List.mem_append] at used
    exact ⟨⟨fit.1, fun ref member => used ref (.inl member)⟩,
      ⟨fit.2, fun ref member => used ref (.inr member)⟩⟩
  · rintro ⟨first, fit, used⟩
    refine ⟨by simp [fitsAll, first.fit, fit], fun ref member => ?_⟩
    rcases List.mem_append.mp member with inFirst | inRest
    · exact first.used ref inFirst
    · exact used ref inRest

theorem mem_insertEntry {key value : HostValue} {entries : List (HostValue × HostValue)}
    {entry : HostValue × HostValue} (member : entry ∈ insertEntry key value entries) :
    entry = (key, value) ∨ entry ∈ entries := by
  induction entries with
  | nil => exact .inl (by simpa [insertEntry] using member)
  | cons head rest ih =>
    obtain ⟨name, old⟩ := head
    unfold insertEntry at member
    split at member
    · simpa using member
    · rcases List.mem_cons.mp member with new | among
      · exact .inl new
      · exact .inr (by simp [among])
    · rcases List.mem_cons.mp member with first | among
      · exact .inr (by simp [first])
      · exact (ih among).imp_right fun inside => by simp [inside]

end HostValue

namespace Program

variable {program : Program}

mutual

/-- The only object in a zero value is the one that stands for nothing. -/
theorem references_zeroWith {structs : StructId → HostValue}
    (inner : ∀ id, ∀ ref ∈ (structs id).references, ref = .none) :
    ∀ type : HostType, ∀ ref ∈ (zeroWith structs type).references, ref = .none
  | .struct id, ref, member => inner id ref member
  | .boxed element, ref, member => references_zeroWith inner element ref member
  | .tuple elements, ref, member => references_zeroAllWith inner elements ref member
  | .object, ref, member => by simpa [zeroWith, HostValue.references] using member
  | .float width, ref, member | .complex width, ref, member => by cases width <;> cases member
  | .unit, _, member | .bool, _, member | .int _, _, member | .text, _, member
  | .bytes, _, member | .seq _, _, member | .map _ _ _, _, member | .optional _, _, member
  | .keywords, _, member | .sealed _, _, member => by cases member

theorem references_zeroAllWith {structs : StructId → HostValue}
    (inner : ∀ id, ∀ ref ∈ (structs id).references, ref = .none) :
    ∀ types : List HostType,
      ∀ ref ∈ HostValue.referencesAll (zeroAllWith structs types), ref = .none
  | [], _, member => by cases member
  | type :: types, ref, member => by
    rcases List.mem_append.mp member with first | rest
    · exact references_zeroWith inner type ref first
    · exact references_zeroAllWith inner types ref rest

end

theorem references_zeroStruct (depth : Nat) :
    ∀ id, ∀ ref ∈ (program.zeroStruct depth id).references, ref = .none := by
  induction depth with
  | zero =>
    intro id ref member
    cases member
  | succ depth ih =>
    intro id ref member
    rw [zeroStruct_succ] at member
    exact references_zeroAllWith ih _ ref member

/-- The zero value of a type, in a heap with the first objects. -/
theorem valid_zero {heap : Heap} (founded : program.Founded)
    (large : Heap.initial.size ≤ heap.size) (type : HostType) :
    (program.zero type).Valid program heap type := by
  refine ⟨program.fits_zero founded type, fun ref member => ?_⟩
  rw [references_zeroWith (references_zeroStruct _) type ref member]
  exact Nat.lt_of_lt_of_le (by decide) large

end Program

/-! ## Decoded values -/

namespace Decode

open HostValue Refusal

variable {program : Program} {world : World} {held : Multiset Ref}

/-- A way of reading structs that yields values with places. -/
def Safe (program : Program) (heap : Heap) (structs : Structs) : Prop :=
  ∀ id ref old new, structs id ref old = .ok new → ref.place < heap.size →
    Valid program heap (.struct id) old → Valid program heap (.struct id) new

theorem used_of_items? (sound : world.Sound program held) {ref : Ref} {items : List Ref}
    (reading : world.heap.items? ref = some items) {item : Ref} (member : item ∈ items) :
    item.place < world.heap.size := by
  refine sound.used_of_body ref ?_
  rcases Heap.items?_eq_some reading with contents | contents <;> rwa [contents]

theorem used_of_entry (sound : world.Sound program held) {ref : Ref} {table : Dict}
    (reading : world.heap.dict? ref = some table) {entry : DictEntry}
    (member : entry ∈ table.entries) :
    entry.key.place < world.heap.size ∧ entry.value.place < world.heap.size := by
  have contents := Heap.dict?_eq_some reading
  constructor
  all_goals
    refine sound.used_of_body ref ?_
    rw [contents]
    exact Dict.mem_references.mpr ⟨entry, member, by simp⟩

mutual

/-- A value that is read is one of its type. -/
theorem valid_valueWith (founded : program.Founded) (sound : world.Sound program held)
    {structs : Structs} (safe : Safe program world.heap structs) :
    ∀ (type : HostType) (ref : Ref) (old new : HostValue),
      valueWith program world.heap structs type ref old = .ok new →
      ref.place < world.heap.size → Valid program world.heap type old →
        Valid program world.heap type new
  | .unit, ref, old, new, reached, _, _ | .bool, ref, old, new, reached, _, _
  | .float _, ref, old, new, reached, _, _ | .complex _, ref, old, new, reached, _, _
  | .text, ref, old, new, reached, _, _ | .bytes, ref, old, new, reached, _, _ => by
    -- What is read is made of numbers and text alone.
    unfold valueWith at reached
    split at reached <;> cases reached <;> exact .of_fit rfl rfl
  | .int kind, ref, old, new, reached, _, _ => by
    unfold valueWith at reached
    split at reached
    · split at reached
      · rename_i inside
        cases reached
        exact .of_fit inside rfl
      · cases reached
    · cases reached
  | .seq element, ref, old, new, reached, _, _ => by
    unfold valueWith at reached
    split at reached
    · cases reached
    · rename_i items reading
      obtain ⟨values, made, last⟩ := exists_of_bind_eq_ok reached
      cases last
      refine .seq fun value member => ?_
      obtain ⟨⟨item, index⟩, among, read⟩ := exists_of_mem_mapM made member
      exact valid_valueWith founded sound safe element item _ value (eq_ok_of_within read)
        (used_of_items? sound reading (List.fst_mem_of_mem_zipIdx among))
        (program.valid_zero founded sound.grounded.large element)
  | .map order keyType valueType, ref, old, new, reached, _, _ => by
    unfold valueWith at reached
    split at reached
    · cases reached
    · rename_i table reading
      obtain ⟨entries, made, last⟩ := exists_of_bind_eq_ok reached
      cases last
      refine .map (invariant_foldlM
        (fun entries => ∀ entry ∈ entries, Valid program world.heap keyType entry.1 ∧
          Valid program world.heap valueType entry.2) made (fun entry member => by cases member) ?_)
      intro entry among before after holds step pair member
      obtain ⟨keyUsed, valueUsed⟩ := used_of_entry sound reading among
      obtain ⟨key, keyRead, step⟩ := exists_of_bind_eq_ok step
      obtain ⟨value, valueRead, step⟩ := exists_of_bind_eq_ok step
      cases step
      rcases mem_insertEntry member with rfl | old
      · exact ⟨valid_valueWith founded sound safe keyType _ _ key (eq_ok_of_within keyRead) keyUsed
            (program.valid_zero founded sound.grounded.large keyType),
          valid_valueWith founded sound safe valueType _ _ value (eq_ok_of_within valueRead)
            valueUsed (program.valid_zero founded sound.grounded.large valueType)⟩
      · exact holds pair old
  | .struct id, ref, old, new, reached, used, valid => by
    unfold valueWith at reached
    exact safe id ref old new reached used valid
  | .boxed element, ref, old, new, reached, used, valid => by
    unfold valueWith at reached
    obtain ⟨inner, read, last⟩ := exists_of_bind_eq_ok reached
    cases last
    have below : Valid program world.heap element inner := by
      obtain ⟨before, rfl, fit⟩ := HostValue.fits_boxed_iff.mp valid.fit
      exact valid_valueWith founded sound safe element ref before inner read used ⟨fit, valid.used⟩
    exact ⟨below.fit, below.used⟩
  | .optional element, ref, old, new, reached, used, _ => by
    unfold valueWith at reached
    split at reached
    · cases reached
      exact .of_fit rfl rfl
    · obtain ⟨inner, read, last⟩ := exists_of_bind_eq_ok reached
      cases last
      have below := valid_valueWith founded sound safe element ref _ inner read used
        (program.valid_zero founded sound.grounded.large element)
      exact ⟨below.fit, below.used⟩
  | .tuple elements, ref, old, new, reached, _, _ => by
    unfold valueWith at reached
    split at reached
    · rename_i items reading
      split at reached
      · rename_i size
        obtain ⟨values, read, last⟩ := exists_of_bind_eq_ok reached
        cases last
        have below := validAll_elementsWith founded sound safe elements items 0 values size.symm
          (fun item => used_of_items? sound reading) read
        exact ⟨below.1, below.2⟩
      · cases reached
    · cases reached
  | .object, ref, old, new, reached, used, _ => by
    unfold valueWith at reached
    cases reached
    refine ⟨rfl, fun inner member => ?_⟩
    rw [List.mem_singleton.mp member]
    exact used
  | .keywords, ref, old, new, reached, used, _ => by
    unfold valueWith at reached
    split at reached <;> cases reached
    refine ⟨rfl, fun inner member => ?_⟩
    rw [List.mem_singleton.mp member]
    exact used
  | .sealed id, ref, old, new, reached, _, _ => by
    unfold valueWith at reached
    cases reached

theorem validAll_elementsWith (founded : program.Founded) (sound : world.Sound program held)
    {structs : Structs} (safe : Safe program world.heap structs) :
    ∀ (types : List HostType) (items : List Ref) (index : Nat) (values : List HostValue),
      types.length = items.length → (∀ item ∈ items, item.place < world.heap.size) →
      elementsWith program world.heap structs types items index = .ok values →
        ValidAll program world.heap types values
  | [], items, index, values, size, used, reached => by
    unfold elementsWith at reached
    cases reached
    exact validAll_nil
  | type :: types, [], index, values, size, used, reached => by cases size
  | type :: types, item :: items, index, values, size, used, reached => by
    unfold elementsWith at reached
    obtain ⟨value, read, later⟩ := exists_of_bind_eq_ok reached
    obtain ⟨rest, read', last⟩ := exists_of_bind_eq_ok later
    cases last
    refine validAll_cons.mpr ⟨?_, ?_⟩
    · exact valid_valueWith founded sound safe type item _ value (eq_ok_of_within read)
        (used item (by simp)) (program.valid_zero founded sound.grounded.large type)
    · exact validAll_elementsWith founded sound safe types items (index + 1) rest
        (by simpa using size) (fun other member => used other (by simp [member])) read'

end

/-- A field that a dict does not mention keeps its value. -/
theorem valid_readField (founded : program.Founded) (sound : world.Sound program held)
    {structs : Structs} (safe : Safe program world.heap structs) {owner : String} {table : Dict}
    (used : ∀ name ref, table.get? name = some ref → ref.place < world.heap.size)
    {field : FieldDecl} {old new : HostValue}
    (reached : readField program world.heap structs owner table field old = .ok new)
    (valid : Valid program world.heap field.type old) :
    Valid program world.heap field.type new := by
  unfold readField at reached
  split at reached
  · rename_i ref _ found
    unfold refusedField at reached
    split at reached
    · cases reached
    · exact valid_valueWith founded sound safe field.type ref old new reached (used _ ref found)
        valid
  · cases reached
    exact valid

theorem validAll_fields (founded : program.Founded) (sound : world.Sound program held)
    {structs : Structs} (safe : Safe program world.heap structs) {owner : String} {table : Dict}
    (used : ∀ name ref, table.get? name = some ref → ref.place < world.heap.size)
    (fields : List FieldDecl) {olds values : List HostValue}
    (valid : ValidAll program world.heap (fields.map (·.type)) olds)
    (reached : Decode.fields program world.heap structs owner table fields olds = .ok values) :
    ValidAll program world.heap (fields.map (·.type)) values := by
  induction fields generalizing olds values with
  | nil =>
    unfold Decode.fields at reached
    cases reached
    exact valid
  | cons field rest ih =>
    cases olds with
    | nil => cases valid.1
    | cons old olds =>
      obtain ⟨oldValid, oldsValid⟩ := validAll_cons.mp valid
      rw [fields_cons] at reached
      obtain ⟨value, read, later⟩ := exists_of_bind_eq_ok reached
      obtain ⟨values', read', last⟩ := exists_of_bind_eq_ok later
      cases last
      exact validAll_cons.mpr
        ⟨valid_readField founded sound safe used read oldValid, ih oldsValid read'⟩

/-- What lies behind a wrapper. -/
theorem valid_wrapped? (sound : world.Sound program held) {ref : Ref} {part : HostValue}
    {bridged : BridgedType} (wrapped : world.heap.wrapped? ref = some (part, bridged)) :
    Valid program world.heap (.struct bridged.host) part := by
  refine ⟨sound.wired.fits_wrapped? wrapped, fun inner member => ?_⟩
  obtain ⟨content, wrapper⟩ := Heap.wrapper?_of_wrapped? wrapped
  obtain ⟨value, rootType, owner, _, _⟩ := sound.wired.location wrapper
  have inside : value.at? (Heap.location ref content).2 = some part := by
    rw [Heap.wrapped?, wrapper] at wrapped
    dsimp only at wrapped
    rw [Heap.ownedValue?_of_wrapper? owner, Option.bind_some] at wrapped
    split at wrapped
    · rename_i found
      rw [found, (Prod.mk.inj (Option.some.inj wrapped)).1]
    · cases wrapped
  obtain ⟨cell, type, registry, present, body, _⟩ := Heap.wrapper?_eq_some.mp owner
  refine sound.used_of_body (Heap.location ref content).1 ?_
  rw [Heap.body_eq present, body]
  exact List.mem_append_left _ (HostValue.references_at? inside member)

/-- How a struct is read: as what a wrapper of it shows, or field by field from a dict. -/
theorem struct_cases {heap : Heap} {registry : RegistryId} {depth : Nat} {id : StructId} {ref : Ref}
    {old new : HostValue} (fit : old.fits program (.struct id) = true)
    (reached : Decode.struct program heap registry depth id ref old = .ok new) :
    (∃ bridged, heap.wrapped? ref = some (new, bridged) ∧ bridged.registry = registry ∧
      bridged.host = id) ∨
    ∃ below table olds values, depth = below + 1 ∧ heap.wrapped? ref = none ∧
      heap.dict? ref = some table ∧ old = .struct olds ∧
      fitsAll program ((program.struct id).fields.map (·.type)) olds = true ∧
      Decode.fields program heap (Decode.struct program heap registry below)
        (program.struct id).name table (program.struct id).fields olds = .ok values ∧
      new = .struct values := by
  cases plain : heap.wrapped? ref with
  | some parts =>
    rw [struct_of_wrapped plain] at reached
    split at reached
    · rename_i right
      cases reached
      exact .inl ⟨parts.2, rfl, right⟩
    · cases reached
  | none =>
    obtain ⟨olds, rfl, each⟩ := HostValue.fits_struct_iff.mp fit
    cases body : heap.dict? ref with
    | none =>
      unfold Decode.struct at reached
      rw [plain, body] at reached
      cases reached
    | some table =>
      cases depth with
      | zero =>
        unfold Decode.struct at reached
        rw [plain, body] at reached
        cases reached
      | succ below =>
        rw [struct_of_dict plain body] at reached
        obtain ⟨values, read, last⟩ := exists_of_bind_eq_ok reached
        cases last
        exact .inr ⟨below, table, olds, values, rfl, rfl, rfl, rfl, each, read, rfl⟩

theorem safe_struct (founded : program.Founded) (sound : world.Sound program held)
    (registry : RegistryId) (depth : Nat) :
    Safe program world.heap (Decode.struct program world.heap registry depth) := by
  induction depth using Nat.strongRecOn with
  | ind depth ih =>
    intro id ref old new reached used valid
    rcases struct_cases valid.fit reached with ⟨bridged, wrapped, _, rfl⟩ |
      ⟨below, table, olds, values, rfl, _, reading, rfl, each, read, rfl⟩
    · exact valid_wrapped? sound wrapped
    · have parts : ValidAll program world.heap ((program.struct id).fields.map (·.type)) values := by
        refine validAll_fields founded sound (ih below (Nat.lt_succ_self below)) ?_ _
          ⟨each, valid.used⟩ read
        intro name inner found
        refine sound.used_of_body ref ?_
        rw [Heap.dict?_eq_some reading]
        exact Dict.mem_references_of_get? found
      exact ⟨parts.1, parts.2⟩

/-- What an object is read as, merged into a value of the type, is one again. -/
theorem valid_value (founded : program.Founded) (sound : world.Sound program held)
    {registry : RegistryId} {type : HostType} {ref : Ref} {old new : HostValue}
    (used : ref.place < world.heap.size) (valid : Valid program world.heap type old)
    (reached : Decode.value program world.heap registry type ref old = .ok new) :
    Valid program world.heap type new :=
  valid_valueWith founded sound (safe_struct founded sound registry _) type ref old new reached
    used valid

theorem valid_fresh (founded : program.Founded) (sound : world.Sound program held)
    {registry : RegistryId} {type : HostType} {ref : Ref} {new : HostValue}
    (used : ref.place < world.heap.size)
    (reached : Decode.fresh program world.heap registry type ref = .ok new) :
    Valid program world.heap type new :=
  valid_value founded sound used (program.valid_zero founded sound.grounded.large type) reached

end Decode

end HostBridge
