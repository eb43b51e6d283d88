import HostBridge.Proofs.Codec.AllOrNothing
import HostBridge.Proofs.Codec.Depth
import HostBridge.Proofs.Codec.Parts

/-!
# What decoding comes to

Which objects can be read as values of a type, and as which values, is said here
without the decoder.  `Decode.Shaped` is the shape that a type demands of an
object, down to the last part of it.  `Decode.Reads` relates an object and the
value in a destination to the value that is there afterwards: the parts of
containers, tuples and payloads start from zero values, a struct that is read
from a dict keeps what the dict does not mention, in boxes too, and of the
entries of a dict that lead to one key the last counts.

Both speak about one heap, the one before the conversion.  Filling a place
succeeds exactly for objects of the right shape, and then all it does is to
write the value that `Decode.Reads` names.
-/

namespace HostBridge

/-- Structs of the sample program hold only such as come before them. -/
theorem Sample.founded (typePath : HostType → String) : (Sample.program typePath).Founded := by
  have lower : ∀ part ∈ Sample.structs.zipIdx, ∀ field ∈ part.1.fields,
      ∀ inner ∈ field.type.held, inner.index < part.2 := by decide +kernel
  refine ⟨StructId.index, fun id field member inner held => ?_⟩
  by_cases declared : id.index < Sample.structs.length
  · have there : (Sample.program typePath).struct id = Sample.structs[id.index] := by
      show (Sample.structs[id.index]?).getD default = _
      rw [List.getElem?_eq_getElem declared, Option.getD_some]
    rw [there] at member
    refine lower (Sample.structs[id.index], id.index) ?_ field member inner held
    exact List.mem_iff_getElem.mpr ⟨id.index, by simpa using declared, by simp⟩
  · rw [Program.fields_of_undeclared declared] at member
    cases member

namespace Decode

open HostValue Refusal

variable {program : Program} {heap : Heap} {registry : RegistryId}

/-! ## The shape of an object -/

variable (program heap registry) in
/-- An object has the shape that a type demands. -/
inductive Shaped : HostType → Ref → Prop
  | unit {ref : Ref} (body : heap.body ref = .none) : Shaped .unit ref
  | bool {ref : Ref} {value : Bool} (body : heap.body ref = .bool value) : Shaped .bool ref
  | int {kind : IntKind} {ref : Ref} {value : Int} (body : heap.body ref = .int value)
      (least : kind.least ≤ value) (greatest : value ≤ kind.greatest) : Shaped (.int kind) ref
  | float {width : FloatWidth} {ref : Ref} {value : Binary64} (body : heap.body ref = .float value) :
      Shaped (.float width) ref
  | widened {width : FloatWidth} {ref : Ref} {value : Int} (body : heap.body ref = .int value) :
      Shaped (.float width) ref
  | complex {width : FloatWidth} {ref : Ref} {real imaginary : Binary64}
      (body : heap.body ref = .complex real imaginary) : Shaped (.complex width) ref
  | text {ref : Ref} {value : String} (body : heap.body ref = .text value) : Shaped .text ref
  | bytes {ref : Ref} {value : List UInt8} (body : heap.body ref = .bytes value) :
      Shaped .bytes ref
  | seq {element : HostType} {ref : Ref} {items : List Ref}
      (body : heap.body ref = .list items ∨ heap.body ref = .tuple items)
      (each : ∀ item ∈ items, Shaped element item) : Shaped (.seq element) ref
  | tuple {types : List HostType} {ref : Ref} {items : List Ref}
      (body : heap.body ref = .list items ∨ heap.body ref = .tuple items)
      (size : items.length = types.length)
      (each : ∀ type item, (type, item) ∈ types.zip items → Shaped type item) :
      Shaped (.tuple types) ref
  | map {order : MapOrder} {key value : HostType} {ref : Ref} {table : Dict}
      (body : heap.body ref = .dict table)
      (keys : ∀ entry ∈ table.entries, Shaped key entry.key)
      (values : ∀ entry ∈ table.entries, Shaped value entry.value) :
      Shaped (.map order key value) ref
  | keywords {ref : Ref} {table : Dict} (body : heap.body ref = .dict table) :
      Shaped .keywords ref
  | nothing {element : HostType} {ref : Ref} (body : heap.body ref = .none) :
      Shaped (.optional element) ref
  | payload {element : HostType} {ref : Ref} (inner : Shaped element ref) :
      Shaped (.optional element) ref
  | boxed {element : HostType} {ref : Ref} (inner : Shaped element ref) :
      Shaped (.boxed element) ref
  | object {ref : Ref} : Shaped .object ref
  /-- A wrapper of the very struct, of the same registry. -/
  | wrapper {id : StructId} {ref : Ref} {value : HostValue} {bridged : BridgedType}
      (wrapped : heap.wrapped? ref = some (value, bridged)) (owned : bridged.registry = registry)
      (host : bridged.host = id) : Shaped (.struct id) ref
  /-- A dict with values for some of the exported fields. -/
  | mentions {id : StructId} {ref : Ref} {table : Dict} (body : heap.body ref = .dict table)
      (each : ∀ field ∈ (program.struct id).fields, field.exported = true →
        ∀ inner, table.get? (.text (Name.snake field.name)) = some inner →
          Shaped field.type inner) : Shaped (.struct id) ref

/-! ## The value of an object -/

variable (program heap registry) in
/-- What an object is read as, merged into an old value. -/
inductive Reads : HostType → Ref → (old new : HostValue) → Prop
  | unit {ref : Ref} {old : HostValue} (body : heap.body ref = .none) : Reads .unit ref old .unit
  | bool {ref : Ref} {old : HostValue} {value : Bool} (body : heap.body ref = .bool value) :
      Reads .bool ref old (.bool value)
  | int {kind : IntKind} {ref : Ref} {old : HostValue} {value : Int}
      (body : heap.body ref = .int value) (least : kind.least ≤ value)
      (greatest : value ≤ kind.greatest) : Reads (.int kind) ref old (.int value)
  | double {ref : Ref} {old : HostValue} {value : Binary64}
      (body : heap.body ref = .float value) : Reads (.float .double) ref old (.double value)
  | single {ref : Ref} {old : HostValue} {value : Binary64}
      (body : heap.body ref = .float value) :
      Reads (.float .single) ref old (.single value.toBinary32)
  | doubleOfInt {ref : Ref} {old : HostValue} {value : Int}
      (body : heap.body ref = .int value) : Reads (.float .double) ref old (.double (.ofInt value))
  | singleOfInt {ref : Ref} {old : HostValue} {value : Int}
      (body : heap.body ref = .int value) :
      Reads (.float .single) ref old (.single (Binary64.ofInt value).toBinary32)
  | complexDouble {ref : Ref} {old : HostValue} {real imaginary : Binary64}
      (body : heap.body ref = .complex real imaginary) :
      Reads (.complex .double) ref old (.complexDouble real imaginary)
  | complexSingle {ref : Ref} {old : HostValue} {real imaginary : Binary64}
      (body : heap.body ref = .complex real imaginary) :
      Reads (.complex .single) ref old (.complexSingle real.toBinary32 imaginary.toBinary32)
  | text {ref : Ref} {old : HostValue} {value : String} (body : heap.body ref = .text value) :
      Reads .text ref old (.text value)
  | bytes {ref : Ref} {old : HostValue} {value : List UInt8}
      (body : heap.body ref = .bytes value) : Reads .bytes ref old (.bytes value)
  | seq {element : HostType} {ref : Ref} {old : HostValue} {items : List Ref}
      {values : List HostValue}
      (body : heap.body ref = .list items ∨ heap.body ref = .tuple items)
      (size : items.length = values.length)
      (each : ∀ item value, (item, value) ∈ items.zip values →
        Reads element item (program.zero element) value) :
      Reads (.seq element) ref old (.seq values)
  | tuple {types : List HostType} {ref : Ref} {old : HostValue} {items : List Ref}
      {values : List HostValue}
      (body : heap.body ref = .list items ∨ heap.body ref = .tuple items)
      (size : items.length = types.length) (full : items.length = values.length)
      (each : ∀ type item value, ((type, item), value) ∈ (types.zip items).zip values →
        Reads type item (program.zero type) value) :
      Reads (.tuple types) ref old (.tuple values)
  | map {order : MapOrder} {key value : HostType} {ref : Ref} {old : HostValue} {table : Dict}
      {pairs entries : List (HostValue × HostValue)} (body : heap.body ref = .dict table)
      (size : table.entries.length = pairs.length)
      (keys : ∀ entry pair, (entry, pair) ∈ table.entries.zip pairs →
        Reads key entry.key (program.zero key) pair.1)
      (values : ∀ entry pair, (entry, pair) ∈ table.entries.zip pairs →
        Reads value entry.value (program.zero value) pair.2)
      (collected : Collects pairs entries) :
      Reads (.map order key value) ref old (.map entries)
  | keywords {ref : Ref} {old : HostValue} {table : Dict} (body : heap.body ref = .dict table) :
      Reads .keywords ref old (.keywords (some ref))
  | absent {element : HostType} {ref : Ref} {old : HostValue} (body : heap.body ref = .none) :
      Reads (.optional element) ref old .absent
  | present {element : HostType} {ref : Ref} {old value : HostValue}
      (body : heap.body ref ≠ .none) (inner : Reads element ref (program.zero element) value) :
      Reads (.optional element) ref old (.present value)
  | boxed {element : HostType} {ref : Ref} {old new : HostValue}
      (inner : Reads element ref old new) :
      Reads (.boxed element) ref (.boxed old) (.boxed new)
  | object {ref : Ref} {old : HostValue} : Reads .object ref old (.object ref)
  /-- A wrapper has a value of its own. -/
  | wrapper {id : StructId} {ref : Ref} {old value : HostValue} {bridged : BridgedType}
      (wrapped : heap.wrapped? ref = some (value, bridged)) (owned : bridged.registry = registry)
      (host : bridged.host = id) : Reads (.struct id) ref old value
  /-- A dict is merged into the old value. -/
  | merged {id : StructId} {ref : Ref} {table : Dict} {olds values : List HostValue}
      (body : heap.body ref = .dict table)
      (size : olds.length = (program.struct id).fields.length)
      (full : olds.length = values.length)
      (mentioned : ∀ field old value inner,
        ((field, old), value) ∈ ((program.struct id).fields.zip olds).zip values →
        field.exported = true → table.get? (.text (Name.snake field.name)) = some inner →
          Reads field.type inner old value)
      (kept : ∀ field old value,
        ((field, old), value) ∈ ((program.struct id).fields.zip olds).zip values →
        field.exported = false ∨ table.get? (.text (Name.snake field.name)) = none →
          value = old) :
      Reads (.struct id) ref (.struct olds) (.struct values)

/-! ## Objects that are read have the shape -/

theorem exists_mem_zip {α β : Type} {item : α} {items : List α} {values : List β}
    (size : items.length = values.length) (member : item ∈ items) :
    ∃ value, (item, value) ∈ items.zip values := by
  obtain ⟨index, inside, rfl⟩ := List.mem_iff_getElem.mp member
  exact ⟨values[index], List.mem_iff_getElem.mpr
    ⟨index, by simpa [List.length_zip, ← size] using inside, List.getElem_zip⟩⟩

/-- What is read has the shape that its type demands. -/
theorem Reads.shaped {type : HostType} {ref : Ref} {old new : HostValue}
    (reads : Reads program heap registry type ref old new) :
    Shaped program heap registry type ref := by
  induction reads with
  | unit body => exact .unit body
  | bool body => exact .bool body
  | int body least greatest => exact .int body least greatest
  | double body | single body => exact .float body
  | doubleOfInt body | singleOfInt body => exact .widened body
  | complexDouble body | complexSingle body => exact .complex body
  | text body => exact .text body
  | bytes body => exact .bytes body
  | seq body size _ ih =>
    refine .seq body fun item member => ?_
    obtain ⟨value, among⟩ := exists_mem_zip size member
    exact ih item value among
  | @tuple types ref old items values body size full _ ih =>
    refine .tuple body size fun type item member => ?_
    have long : (types.zip items).length = values.length := by simp [List.length_zip, ← size, full]
    obtain ⟨value, among⟩ := exists_mem_zip long member
    exact ih type item value among
  | map body size _ _ _ keys values =>
    refine .map body (fun entry member => ?_) fun entry member => ?_
    all_goals obtain ⟨pair, among⟩ := exists_mem_zip size member
    · exact keys entry pair among
    · exact values entry pair among
  | keywords body => exact .keywords body
  | absent body => exact .nothing body
  | present _ _ ih => exact .payload ih
  | boxed _ ih => exact .boxed ih
  | object => exact .object
  | wrapper wrapped owned host => exact .wrapper wrapped owned host
  | @merged id ref table olds values body size full _ _ ih =>
    refine .mentions body fun field member exported inner found => ?_
    obtain ⟨old, beside⟩ := exists_mem_zip size.symm member
    have long : ((program.struct id).fields.zip olds).length = values.length := by
      simp [List.length_zip, ← size, full]
    obtain ⟨value, among⟩ := exists_mem_zip long beside
    exact ih field old value inner among exported found

/-! ## What the decoder reads -/

section

variable {structs : Structs}

variable (program heap registry) in
/-- A way of reading structs that reads them as what they are. -/
def Faithful (structs : Structs) : Prop :=
  ∀ id ref old new, old.fits program (.struct id) = true → structs id ref old = .ok new →
    Reads program heap registry (.struct id) ref old new

mutual

/-- What the decoder reads is what the object is read as. -/
theorem reads_of_valueWith (founded : program.Founded)
    (faithful : Faithful program heap registry structs) :
    ∀ (type : HostType) (ref : Ref) (old new : HostValue), old.fits program type = true →
      valueWith program heap structs type ref old = .ok new →
        Reads program heap registry type ref old new
  | .unit, ref, old, new, _, reached => by
    cases body : heap.body ref <;> simp [valueWith, Heap.isNone, mismatch, body] at reached
    subst reached
    exact .unit body
  | .bool, ref, old, new, _, reached => by
    cases body : heap.body ref <;> simp [valueWith, Heap.asBool?, mismatch, body] at reached
    subst reached
    exact .bool body
  | .int kind, ref, old, new, _, reached => by
    cases body : heap.body ref <;> simp only [valueWith, Heap.asInt?, mismatch, body] at reached <;>
      try cases reached
    split at reached
    · rename_i inside
      cases reached
      exact .int body (IntKind.holds_iff.mp inside).1 (IntKind.holds_iff.mp inside).2
    · cases reached
  | .float width, ref, old, new, _, reached => by
    cases width <;> cases body : heap.body ref <;>
      simp [valueWith, Heap.asFloat?, mismatch, body] at reached <;> subst reached
    · exact .singleOfInt body
    · exact .single body
    · exact .doubleOfInt body
    · exact .double body
  | .complex width, ref, old, new, _, reached => by
    cases width <;> cases body : heap.body ref <;>
      simp [valueWith, Heap.asComplex?, mismatch, body] at reached <;> subst reached
    · exact .complexSingle body
    · exact .complexDouble body
  | .text, ref, old, new, _, reached => by
    cases body : heap.body ref <;> simp [valueWith, Heap.asText?, mismatch, body] at reached
    subst reached
    exact .text body
  | .bytes, ref, old, new, _, reached => by
    cases body : heap.body ref <;> simp [valueWith, Heap.asBytes?, mismatch, body] at reached
    subst reached
    exact .bytes body
  | .seq element, ref, old, new, _, reached => by
    obtain ⟨items, values, body, read, rfl⟩ := valueWith_seq_iff.mp reached
    obtain ⟨size, each⟩ := List.forall₂_iff_zip.mp read
    exact .seq body size fun item value member =>
      reads_of_valueWith founded faithful element item _ value
        (program.fits_zero founded element) (each member)
  | .map order key value, ref, old, new, _, reached => by
    obtain ⟨table, pairs, body, read, rfl⟩ := valueWith_map_iff.mp reached
    obtain ⟨size, each⟩ := List.forall₂_iff_zip.mp read
    exact .map body size
      (fun entry pair member => reads_of_valueWith founded faithful key entry.key _ pair.1
        (program.fits_zero founded key) (each member).1)
      (fun entry pair member => reads_of_valueWith founded faithful value entry.value _ pair.2
        (program.fits_zero founded value) (each member).2)
      (collects_insertAll pairs)
  | .struct id, ref, old, new, fit, reached => faithful id ref old new fit reached
  | .boxed element, ref, old, new, fit, reached => by
    obtain ⟨before, rfl, fit⟩ := HostValue.fits_boxed_iff.mp fit
    unfold valueWith at reached
    obtain ⟨inner, read, last⟩ := exists_of_bind_eq_ok reached
    cases last
    exact .boxed (reads_of_valueWith founded faithful element ref before inner fit read)
  | .optional element, ref, old, new, _, reached => by
    unfold valueWith at reached
    split at reached
    · rename_i nothing
      cases reached
      exact .absent (Heap.isNone_iff.mp nothing)
    · rename_i something
      obtain ⟨inner, read, last⟩ := exists_of_bind_eq_ok reached
      cases last
      exact .present (mt Heap.isNone_iff.mpr something)
        (reads_of_valueWith founded faithful element ref _ inner
          (program.fits_zero founded element) read)
  | .tuple types, ref, old, new, _, reached => by
    obtain ⟨items, values, body, size, read, rfl⟩ := valueWith_tuple_iff.mp reached
    obtain ⟨full, each⟩ := List.forall₂_iff_zip.mp read
    refine .tuple body size ?_ fun type item value member => ?_
    · simpa [List.length_zip, ← size] using full
    · exact reads_of_elements founded faithful types type
        (List.of_mem_zip (List.of_mem_zip member).1).1 item value (each member)
  | .object, ref, old, new, _, reached => by
    simp only [valueWith, Except.ok.injEq] at reached
    subst reached
    exact .object
  | .keywords, ref, old, new, _, reached => by
    cases body : heap.body ref <;> simp [valueWith, Heap.isDict, mismatch, body] at reached
    subst reached
    exact .keywords body
  | .sealed id, ref, old, new, _, reached => by
    simp [valueWith, noForm] at reached

theorem reads_of_elements (founded : program.Founded)
    (faithful : Faithful program heap registry structs) :
    ∀ types : List HostType, ∀ type ∈ types, ∀ (ref : Ref) (new : HostValue),
      valueWith program heap structs type ref (program.zero type) = .ok new →
        Reads program heap registry type ref (program.zero type) new
  | type :: types, other, member, ref, new, reached => by
    rcases List.mem_cons.mp member with same | later
    · rw [same] at reached ⊢
      exact reads_of_valueWith founded faithful type ref _ new (program.fits_zero founded type)
        reached
    · exact reads_of_elements founded faithful types other later ref new reached

end

end

/-- Structs are read as what they are, at any depth. -/
theorem faithful_struct (founded : program.Founded) (depth : Nat) :
    Faithful program heap registry (struct program heap registry depth) := by
  induction depth using Nat.strongRecOn with
  | ind depth ih =>
    intro id ref old new fit reached
    rcases struct_cases fit reached with ⟨bridged, wrapped, owned, host⟩ |
      ⟨below, table, olds, values, rfl, _, body, rfl, parts, read, rfl⟩
    · exact .wrapper wrapped owned host
    · obtain ⟨size, fits⟩ := List.forall₂_iff_zip.mp (HostValue.fitsAll_fields_iff.mp parts)
      obtain ⟨full, each⟩ := List.forall₂_iff_zip.mp ((fields_eq_ok_iff size.symm).mp read)
      refine .merged (Heap.dict?_eq_some body) size.symm ?_ ?_ ?_
      · simpa [List.length_zip, size] using full
      · intro field old value inner member exported found
        exact reads_of_valueWith founded (ih below (Nat.lt_succ_self below)) field.type inner old
          value (fits (List.of_mem_zip member).1)
          ((readField_eq_ok_iff.mp (each member)).1 inner exported found)
      · intro field old value member lacking
        exact (readField_eq_ok_iff.mp (each member)).2 lacking

/-! ## The decoder reads all that has the shape -/

/-- A dict that can be read as a struct is read. -/
theorem struct_of_fields (founded : program.Founded) {id : StructId} {ref : Ref} {table : Dict}
    {olds values : List HostValue} (body : heap.body ref = .dict table)
    (fit : (HostValue.struct olds).fits program (.struct id) = true)
    (read : fields program heap (struct program heap registry (depth program heap))
      (program.struct id).name table (program.struct id).fields olds = .ok values) :
    struct program heap registry (depth program heap) id ref (.struct olds) =
      .ok (.struct values) := by
  have plain : heap.wrapped? ref = none := by simp [Heap.wrapped?, Heap.wrapper?, body]
  have found : heap.dict? ref = some table := by simp [Heap.dict?, body]
  have deeper : struct program heap registry (depth program heap + 1) id ref (.struct olds) =
      .ok (.struct values) := by
    rw [struct_of_dict plain found, read]
    rfl
  obtain ⟨new, reached, same⟩ := covers_depth founded registry id ref _ _ fit deeper _ fit
  rw [reached, same rfl]

/-- What an object is read as, the decoder reads. -/
theorem Reads.valueWith (founded : program.Founded) {type : HostType} {ref : Ref}
    {old new : HostValue} (reads : Reads program heap registry type ref old new)
    (fit : old.fits program type = true) :
    Decode.valueWith program heap (struct program heap registry (depth program heap)) type ref old =
      .ok new := by
  induction reads with
  | unit body => simp [Decode.valueWith, Heap.isNone, body]
  | bool body => simp [Decode.valueWith, Heap.asBool?, body]
  | int body least greatest => simp [Decode.valueWith, Heap.asInt?, body, least, greatest]
  | double body | single body | doubleOfInt body | singleOfInt body =>
    simp [Decode.valueWith, Heap.asFloat?, body]
  | complexDouble body | complexSingle body => simp [Decode.valueWith, Heap.asComplex?, body]
  | text body => simp [Decode.valueWith, Heap.asText?, body]
  | bytes body => simp [Decode.valueWith, Heap.asBytes?, body]
  | seq body size _ ih =>
    refine valueWith_seq_iff.mpr ⟨_, _, body, List.forall₂_iff_zip.mpr ⟨size, ?_⟩, rfl⟩
    exact fun member => ih _ _ member (program.fits_zero founded _)
  | @tuple types ref old items values body size full _ ih =>
    refine valueWith_tuple_iff.mpr
      ⟨_, _, body, size, List.forall₂_iff_zip.mpr ⟨?_, fun member => ?_⟩, rfl⟩
    · simp [List.length_zip, ← size, full]
    · exact ih _ _ _ member (program.fits_zero founded _)
  | @map order key value ref old table pairs entries body size _ _ collected keys values =>
    rw [collected.unique (collects_insertAll pairs)]
    refine valueWith_map_iff.mpr ⟨_, _, body, List.forall₂_iff_zip.mpr ⟨size, ?_⟩, rfl⟩
    exact fun member => ⟨keys _ _ member (program.fits_zero founded _),
      values _ _ member (program.fits_zero founded _)⟩
  | keywords body => simp [Decode.valueWith, Heap.isDict, body]
  | absent body => simp [Decode.valueWith, Heap.isNone, body]
  | present body _ ih =>
    have something := mt Heap.isNone_iff.mp body
    unfold Decode.valueWith
    rw [if_neg something, ih (program.fits_zero founded _)]
    rfl
  | boxed _ ih =>
    unfold Decode.valueWith
    dsimp only
    rw [ih fit]
    rfl
  | object => rfl
  | wrapper wrapped owned host =>
    unfold Decode.valueWith
    rw [struct_of_wrapped wrapped, if_pos ⟨owned, host⟩]
  | @merged id ref table olds values body size full _ kept ih =>
    unfold Decode.valueWith
    refine struct_of_fields founded body fit ((fields_eq_ok_iff size).mpr ?_)
    obtain ⟨_, fits⟩ := List.forall₂_iff_zip.mp (HostValue.fitsAll_fields_iff.mp fit)
    refine List.forall₂_iff_zip.mpr ⟨by simp [List.length_zip, ← size, full], fun member => ?_⟩
    exact readField_eq_ok_iff.mpr
      ⟨fun inner exported found => ih _ _ _ inner member exported found
        (fits (List.of_mem_zip member).1), kept _ _ _ member⟩

/-- What has the shape that its type demands is read, whatever it is merged into. -/
theorem Shaped.valueWith (founded : program.Founded) {type : HostType} {ref : Ref}
    (shaped : Shaped program heap registry type ref) (old : HostValue)
    (fit : old.fits program type = true) :
    ∃ new, Decode.valueWith program heap (struct program heap registry (depth program heap)) type
      ref old = .ok new := by
  induction shaped generalizing old with
  | unit body => exact ⟨_, Reads.valueWith founded (.unit body) fit⟩
  | bool body => exact ⟨_, Reads.valueWith founded (.bool body) fit⟩
  | int body least greatest => exact ⟨_, Reads.valueWith founded (.int body least greatest) fit⟩
  | @float width ref value body =>
    cases width with
    | single => exact ⟨_, Reads.valueWith founded (.single body) fit⟩
    | double => exact ⟨_, Reads.valueWith founded (.double body) fit⟩
  | @widened width ref value body =>
    cases width with
    | single => exact ⟨_, Reads.valueWith founded (.singleOfInt body) fit⟩
    | double => exact ⟨_, Reads.valueWith founded (.doubleOfInt body) fit⟩
  | @complex width ref real imaginary body =>
    cases width with
    | single => exact ⟨_, Reads.valueWith founded (.complexSingle body) fit⟩
    | double => exact ⟨_, Reads.valueWith founded (.complexDouble body) fit⟩
  | text body => exact ⟨_, Reads.valueWith founded (.text body) fit⟩
  | bytes body => exact ⟨_, Reads.valueWith founded (.bytes body) fit⟩
  | seq body _ ih =>
    obtain ⟨values, each⟩ := exists_forall₂ fun item member =>
      ih item member _ (program.fits_zero founded _)
    exact ⟨_, valueWith_seq_iff.mpr ⟨_, values, body, each, rfl⟩⟩
  | tuple body size _ ih =>
    obtain ⟨values, each⟩ := exists_forall₂ fun (part : HostType × Ref) member =>
      ih part.1 part.2 member _ (program.fits_zero founded _)
    exact ⟨_, valueWith_tuple_iff.mpr ⟨_, values, body, size, each, rfl⟩⟩
  | @map order key value ref table body _ _ keys values =>
    let structs := struct program heap registry (depth program heap)
    have both : ∀ entry ∈ table.entries, ∃ pair : HostValue × HostValue,
        Decode.valueWith program heap structs key entry.key (program.zero key) = .ok pair.1 ∧
        Decode.valueWith program heap structs value entry.value (program.zero value) =
          .ok pair.2 := by
      intro entry member
      obtain ⟨name, named⟩ := keys entry member _ (program.fits_zero founded key)
      obtain ⟨content, filled⟩ := values entry member _ (program.fits_zero founded value)
      exact ⟨(name, content), named, filled⟩
    obtain ⟨pairs, each⟩ := exists_forall₂ both
    exact ⟨_, valueWith_map_iff.mpr ⟨table, pairs, body, each, rfl⟩⟩
  | keywords body => exact ⟨_, Reads.valueWith founded (.keywords body) fit⟩
  | nothing body => exact ⟨_, Reads.valueWith founded (.absent body) fit⟩
  | @payload element ref _ ih =>
    by_cases body : heap.body ref = .none
    · exact ⟨_, Reads.valueWith founded (.absent body) fit⟩
    · obtain ⟨inner, read⟩ := ih _ (program.fits_zero founded element)
      refine ⟨.present inner, ?_⟩
      unfold Decode.valueWith
      rw [if_neg (mt Heap.isNone_iff.mp body), read]
      rfl
  | boxed _ ih =>
    obtain ⟨before, rfl, fit⟩ := HostValue.fits_boxed_iff.mp fit
    obtain ⟨inner, read⟩ := ih before fit
    refine ⟨.boxed inner, ?_⟩
    unfold Decode.valueWith
    dsimp only
    rw [read]
    rfl
  | object => exact ⟨_, Reads.valueWith founded .object fit⟩
  | wrapper wrapped owned host =>
    exact ⟨_, Reads.valueWith founded (.wrapper wrapped owned host) fit⟩
  | @mentions id ref table body _ ih =>
    obtain ⟨olds, rfl, fits⟩ := HostValue.fits_struct_iff.mp fit
    obtain ⟨size, fits⟩ := List.forall₂_iff_zip.mp (HostValue.fitsAll_fields_iff.mp fits)
    have each : ∀ part ∈ (program.struct id).fields.zip olds, ∃ value, readField program heap
        (struct program heap registry (depth program heap)) (program.struct id).name table
          part.1 part.2 = .ok value := by
      rintro ⟨field, old⟩ member
      by_cases mentioned : ∃ inner, field.exported = true ∧
          table.get? (.text (Name.snake field.name)) = some inner
      · obtain ⟨inner, exported, found⟩ := mentioned
        obtain ⟨value, read⟩ :=
          ih field (List.of_mem_zip member).1 exported inner found old (fits member)
        refine ⟨value, readField_eq_ok_iff.mpr ⟨fun other _ found' => ?_, fun lacking => ?_⟩⟩
        · rw [found] at found'
          rw [← Option.some.inj found', read]
        · simp [exported, found] at lacking
      · refine ⟨old, readField_eq_ok_iff.mpr ⟨fun inner exported found => ?_, fun _ => rfl⟩⟩
        exact absurd ⟨inner, exported, found⟩ mentioned
    obtain ⟨values, read⟩ := exists_forall₂ each
    refine ⟨.struct values, ?_⟩
    unfold Decode.valueWith
    exact struct_of_fields founded body fit ((fields_eq_ok_iff size.symm).mpr read)

/-- Reading an object comes to the value that it is read as, and to nothing else. -/
theorem value_eq_ok_iff (founded : program.Founded) {type : HostType} {ref : Ref}
    {old new : HostValue} (fit : old.fits program type = true) :
    value program heap registry type ref old = .ok new ↔
      Reads program heap registry type ref old new :=
  ⟨reads_of_valueWith founded (faithful_struct founded _) type ref old new fit,
    fun reads => reads.valueWith founded fit⟩

/-- An object can be read exactly if it has the shape that its type demands. -/
theorem exists_value_iff (founded : program.Founded) {type : HostType} {ref : Ref}
    {old : HostValue} (fit : old.fits program type = true) :
    (∃ new, value program heap registry type ref old = .ok new) ↔
      Shaped program heap registry type ref := by
  constructor
  · rintro ⟨new, reached⟩
    exact ((value_eq_ok_iff founded fit).mp reached).shaped
  · intro shaped
    exact shaped.valueWith founded old fit

/--
Conversion into the host is what a relation between objects and values says, read in the
memory from before the conversion.  It succeeds for the objects that have the shape which
the type demands, down to the last part, and for no others; then the one thing that it does
is to write the value that the object is read as, merged into what the place held; and there
is only one such value.
-/
theorem fill_reads (program : Program) (founded : program.Founded) (registry : RegistryId)
    (type : HostType) {σ : Type} (ref : Ref) (place : Cursor σ) (state : σ)
    (fit : (place.read state).fits program type = true) :
    ((∃ after, (fill program registry type ref place).run state = (.ok (), after)) ↔
      Shaped program (place.heap state) registry type ref) ∧
    (∀ after, (fill program registry type ref place).run state = (.ok (), after) ↔
      ∃ new, Reads program (place.heap state) registry type ref (place.read state) new ∧
        after = place.write new state) ∧
    ∀ new new', Reads program (place.heap state) registry type ref (place.read state) new →
      Reads program (place.heap state) registry type ref (place.read state) new' → new = new' := by
  have ends : ∀ after, (fill program registry type ref place).run state = (.ok (), after) ↔
      ∃ new, Reads program (place.heap state) registry type ref (place.read state) new ∧
        after = place.write new state := by
    intro after
    rw [fill_run]
    constructor
    · intro ended
      cases reading : value program (place.heap state) registry type ref (place.read state) with
      | error refusal =>
        rw [reading] at ended
        cases ended
      | ok new =>
        rw [reading] at ended
        exact ⟨new, (value_eq_ok_iff founded fit).mp reading, (Prod.mk.inj ended).2.symm⟩
    · rintro ⟨new, reads, rfl⟩
      rw [(value_eq_ok_iff founded fit).mpr reads]
      rfl
  refine ⟨?_, ends, fun new new' reads reads' => ?_⟩
  · rw [← exists_value_iff founded fit]
    simp only [ends, value_eq_ok_iff founded fit]
    exact ⟨fun ⟨_, new, reads, _⟩ => ⟨new, reads⟩, fun ⟨new, reads⟩ => ⟨_, new, reads, rfl⟩⟩
  · rw [← value_eq_ok_iff founded fit] at reads reads'
    exact Except.ok.inj (reads.symm.trans reads')

/-- A vault with secrets in it, beside a dict with something to show. -/
def vaultBesideDict : World :=
  let program := Sample.program fun _ => ""
  let plan := program.plan ⟨9⟩ none
  let vault := program.typeBody ⟨0⟩ ⟨9⟩ "Vault" "" none plan
  let bridged := Program.bridgedType ⟨0⟩ ⟨9⟩ "Vault" none plan
  let secret := fun hidden => HostValue.struct [.int 1, .text "kept", .int hidden]
  { World.initial with
    heap := ⟨Heap.initial.cells ++ #[some ⟨2, .type vault⟩,
      some ⟨1, .instance ⟨3⟩ (some (.wrapper ⟨0⟩
        (.owned (.struct [secret 7, .boxed (secret 9), .absent, .seq []]))))⟩,
      some ⟨1, .text "shown"⟩, some ⟨1, .int 5⟩,
      some ⟨1, .dict (Dict.empty.set (.text "shown") ⟨5⟩ ⟨6⟩)⟩]⟩
    registries := #[Registry.enroll ⟨3⟩ bridged
      { Registry.empty with owners := 1, roster := Roster.empty.pushFront ⟨4⟩ }] }

/-- The dict is merged into the secret in the box, which keeps its label and what it hides. -/
theorem fill_reads_vaultBesideDict :
    let program := Sample.program fun _ => ""
    let place := Cursor.behind ⟨4⟩ 1
    let type := HostType.boxed Sample.secretType
    let merged := HostValue.boxed (.struct [.int 5, .text "kept", .int 9])
    (place.read vaultBesideDict).fits program type = true ∧
    Shaped program vaultBesideDict.heap ⟨0⟩ type ⟨7⟩ ∧
    (fill program ⟨0⟩ type ⟨7⟩ place).run vaultBesideDict =
      (.ok (), place.write merged vaultBesideDict) ∧
    ∀ new, Reads program vaultBesideDict.heap ⟨0⟩ type ⟨7⟩ (place.read vaultBesideDict) new →
      new = merged := by
  intro program place type merged
  have fit : (place.read vaultBesideDict).fits program type = true := rfl
  obtain ⟨shape, ends, unique⟩ :=
    fill_reads program (Sample.founded _) ⟨0⟩ type ⟨7⟩ place vaultBesideDict fit
  have dict : vaultBesideDict.heap.body ⟨7⟩ = .dict (Dict.empty.set (.text "shown") ⟨5⟩ ⟨6⟩) := rfl
  have parts : ∀ field old value, ((field, old), value) ∈
      [((Sample.field "shown" Sample.i64, HostValue.int 1), HostValue.int 5),
        ((Sample.field "label" .text, .text "kept"), .text "kept"),
        ((⟨"hidden", Sample.i64, false⟩, .int 9), .int 9)] →
      (field = Sample.field "shown" Sample.i64 ∧ value = .int 5) ∨
        (field.exported = false ∨ field = Sample.field "label" .text) ∧ value = old := by
    intro field old value member
    simp only [List.mem_cons, Prod.mk.injEq, List.not_mem_nil, or_false] at member
    obtain ⟨⟨rfl, rfl⟩, rfl⟩ | ⟨⟨rfl, rfl⟩, rfl⟩ | ⟨⟨rfl, rfl⟩, rfl⟩ := member <;> simp
  have reads : Reads program vaultBesideDict.heap ⟨0⟩ type ⟨7⟩ (place.read vaultBesideDict)
      merged := by
    refine .boxed (.merged dict rfl rfl ?_ ?_)
    · intro field old value inner member exported found
      obtain ⟨rfl, rfl⟩ | ⟨hidden | rfl, _⟩ := parts field old value member
      · obtain rfl : (⟨6⟩ : Ref) = inner := Option.some.inj found
        exact .int rfl (by decide) (by decide)
      · rw [hidden] at exported
        cases exported
      · cases found
    · intro field old value member lacking
      obtain ⟨rfl, rfl⟩ | ⟨_, same⟩ := parts field old value member
      · rcases lacking with hidden | missing
        · cases hidden
        · cases missing
      · exact same
  have ran := (ends _).mpr ⟨merged, reads, rfl⟩
  exact ⟨fit, shape.mp ⟨_, ran⟩, ran, fun new reads' => unique new merged reads' reads⟩

end Decode

end HostBridge
