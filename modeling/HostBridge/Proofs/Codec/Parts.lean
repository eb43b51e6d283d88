import Mathlib
import HostBridge.Proofs.Codec.Reading
import HostBridge.Proofs.Value.Sorting

/-!
# The parts of what is read

A container is read if its parts are.  For each kind of container, and for the
fields of a struct, this says what the decoder reads from what it reads of the
parts, without a word on the order in which it goes about it.
-/

namespace HostBridge

namespace Heap

theorem isNone_iff {heap : Heap} {ref : Ref} : heap.isNone ref = true ↔ heap.body ref = .none := by
  unfold isNone
  cases heap.body ref <;> simp

end Heap

namespace HostValue

/-- The values of a struct are of the types of its fields, one by one. -/
theorem fitsAll_fields_iff {program : Program} {decls : List FieldDecl} {values : List HostValue} :
    fitsAll program (decls.map (·.type)) values = true ↔
      List.Forall₂ (fun field value => value.fits program field.type = true) decls values := by
  induction decls generalizing values with
  | nil => cases values <;> simp [fitsAll]
  | cons field rest ih => cases values <;> simp [fitsAll, ih]

end HostValue

/-! ## Lists of results -/

/-- Values that exist one by one make a list. -/
theorem exists_forall₂ {α β : Type} {holds : α → β → Prop} {items : List α}
    (each : ∀ item ∈ items, ∃ value, holds item value) :
    ∃ values, List.Forall₂ holds items values := by
  induction items with
  | nil => exact ⟨[], .nil⟩
  | cons item items ih =>
    obtain ⟨value, first⟩ := each item (by simp)
    obtain ⟨values, rest⟩ := ih fun other member => each other (by simp [member])
    exact ⟨value :: values, .cons first rest⟩

namespace Refusal

variable {α β ε ι : Type}

theorem within_eq_ok_iff {place : String} {result : Except Refusal α} {value : α} :
    within place result = .ok value ↔ result = .ok value :=
  ⟨eq_ok_of_within, fun reached => by rw [reached, within_ok]⟩

/-- A list is made if its first item and the others are. -/
theorem cons_eq_ok_iff {first : Except ε β} {rest : Except ε (List β)} {values : List β} :
    (do return (← first) :: (← rest)) = .ok values ↔
      ∃ value others, first = .ok value ∧ rest = .ok others ∧ values = value :: others := by
  constructor
  · intro reached
    obtain ⟨value, made, later⟩ := exists_of_bind_eq_ok reached
    obtain ⟨others, made', last⟩ := exists_of_bind_eq_ok later
    cases last
    exact ⟨value, others, made, made', rfl⟩
  · rintro ⟨value, others, rfl, rfl, rfl⟩
    rfl

/-- Items are read in a row if each of them is. -/
theorem mapM_zipIdx_eq_ok_iff (place : Nat → String) (read : ι → Except Refusal β) {items : List ι}
    {start : Nat} {values : List β} :
    (items.zipIdx start).mapM (fun entry => within (place entry.2) (read entry.1)) = .ok values ↔
      List.Forall₂ (fun item value => read item = .ok value) items values := by
  induction items generalizing start values with
  | nil =>
    rw [List.zipIdx_nil, List.mapM_nil, List.forall₂_nil_left_iff]
    exact ⟨fun reached => (Except.ok.inj reached).symm, fun none => none ▸ rfl⟩
  | cons item items ih =>
    rw [List.zipIdx_cons, List.mapM_cons, List.forall₂_cons_left_iff]
    refine cons_eq_ok_iff.trans ?_
    simp only [within_eq_ok_iff, ih, exists_and_left]

end Refusal

namespace Decode

open HostValue Refusal

variable {program : Program} {heap : Heap}

/-! ## The parts of what is read -/

/-- Entries are read in a row if each key and each value is, and then all are put in. -/
theorem foldlM_insertEntry_eq_ok_iff {nameKey nameValue : DictEntry → String}
    {readKey readValue : DictEntry → Except Refusal HostValue} {table : List DictEntry}
    {entries result : List (HostValue × HostValue)} :
    table.foldlM (fun entries entry => do
        let key ← within (nameKey entry) (readKey entry)
        let value ← within (nameValue entry) (readValue entry)
        return insertEntry key value entries) entries = .ok result ↔
      ∃ pairs, List.Forall₂ (fun entry pair => readKey entry = .ok pair.1 ∧
          readValue entry = .ok pair.2) table pairs ∧ result = insertAll pairs entries := by
  induction table generalizing entries with
  | nil =>
    rw [List.foldlM_nil]
    constructor
    · intro reached
      exact ⟨[], .nil, (Except.ok.inj reached).symm⟩
    · rintro ⟨pairs, none, rfl⟩
      cases none
      rfl
  | cons entry table ih =>
    rw [List.foldlM_cons]
    constructor
    · intro reached
      obtain ⟨middle, step, later⟩ := exists_of_bind_eq_ok reached
      obtain ⟨key, keyRead, step⟩ := exists_of_bind_eq_ok step
      obtain ⟨value, valueRead, step⟩ := exists_of_bind_eq_ok step
      cases step
      obtain ⟨pairs, rest, rfl⟩ := ih.mp later
      exact ⟨(key, value) :: pairs,
        .cons ⟨eq_ok_of_within keyRead, eq_ok_of_within valueRead⟩ rest, rfl⟩
    · rintro ⟨pairs, read, rfl⟩
      cases read with
      | cons first rest =>
        rw [first.1, first.2]
        exact ih.mpr ⟨_, rest, rfl⟩

/-- The items of a tuple are read if each of them is. -/
theorem elementsWith_eq_ok_iff {structs : Structs} {types : List HostType} {items : List Ref}
    {index : Nat} {values : List HostValue} (size : items.length = types.length) :
    elementsWith program heap structs types items index = .ok values ↔
      List.Forall₂ (fun part value => valueWith program heap structs part.1 part.2
        (program.zero part.1) = .ok value) (types.zip items) values := by
  induction types generalizing items index values with
  | nil =>
    rw [List.zip_nil_left, List.forall₂_nil_left_iff]
    simp only [elementsWith]
    exact ⟨fun reached => (Except.ok.inj reached).symm, fun none => none ▸ rfl⟩
  | cons type types ih =>
    cases items with
    | nil => cases size
    | cons item items =>
      rw [elementsWith, List.zip_cons_cons, List.forall₂_cons_left_iff]
      refine cons_eq_ok_iff.trans ?_
      simp only [within_eq_ok_iff, ih (Nat.succ.inj size), exists_and_left]

/-- The fields of a struct are merged if each of them is. -/
theorem fields_eq_ok_iff {structs : Structs} {owner : String} {table : Dict}
    {decls : List FieldDecl} {olds values : List HostValue} (size : olds.length = decls.length) :
    fields program heap structs owner table decls olds = .ok values ↔
      List.Forall₂ (fun part value => readField program heap structs owner table part.1 part.2 =
        .ok value) (decls.zip olds) values := by
  induction decls generalizing olds values with
  | nil =>
    rw [List.eq_nil_of_length_eq_zero size, List.zip_nil_left, List.forall₂_nil_left_iff]
    simp only [fields]
    exact ⟨fun reached => (Except.ok.inj reached).symm, fun none => none ▸ rfl⟩
  | cons field rest ih =>
    cases olds with
    | nil => cases size
    | cons old olds =>
      rw [fields_cons, List.zip_cons_cons, List.forall₂_cons_left_iff]
      refine cons_eq_ok_iff.trans ?_
      simp only [ih (Nat.succ.inj size), exists_and_left]

section

variable {structs : Structs} {ref : Ref} {old new : HostValue}

/-- A sequence is read if each of its items is. -/
theorem valueWith_seq_iff {element : HostType} :
    valueWith program heap structs (.seq element) ref old = .ok new ↔
      ∃ items values, (heap.body ref = .list items ∨ heap.body ref = .tuple items) ∧
        List.Forall₂ (fun item value => valueWith program heap structs element item
          (program.zero element) = .ok value) items values ∧ new = .seq values := by
  let read := fun item => valueWith program heap structs element item (program.zero element)
  have rows : ∀ {items : List Ref} {values : List HostValue},
      ((items.zipIdx 0).mapM fun entry => within s!"[{entry.2}]" (read entry.1)) = .ok values ↔
        List.Forall₂ (fun item value => read item = .ok value) items values :=
    mapM_zipIdx_eq_ok_iff (fun index => s!"[{index}]") read
  constructor
  · intro reached
    unfold valueWith at reached
    split at reached
    · cases reached
    · rename_i items reading
      obtain ⟨values, made, last⟩ := exists_of_bind_eq_ok reached
      cases last
      exact ⟨items, values, Heap.items?_eq_some reading, rows.mp made, rfl⟩
  · rintro ⟨items, values, body, each, rfl⟩
    have reading : heap.items? ref = some items := by
      rcases body with body | body <;> rw [Heap.items?, body]
    unfold valueWith
    rw [reading]
    exact congrArg (fun read : Except Refusal _ => read >>= fun values => .ok (HostValue.seq values))
      (rows.mpr each)

/-- A map is read if each of its keys and each of its values is. -/
theorem valueWith_map_iff {order : MapOrder} {key value : HostType} :
    valueWith program heap structs (.map order key value) ref old = .ok new ↔
      ∃ table pairs, heap.body ref = .dict table ∧
        List.Forall₂ (fun entry pair =>
          valueWith program heap structs key entry.key (program.zero key) = .ok pair.1 ∧
          valueWith program heap structs value entry.value (program.zero value) = .ok pair.2)
            table.entries pairs ∧ new = .map (insertAll pairs []) := by
  constructor
  · intro reached
    unfold valueWith at reached
    split at reached
    · cases reached
    · rename_i table reading
      obtain ⟨entries, made, last⟩ := exists_of_bind_eq_ok reached
      cases last
      obtain ⟨pairs, each, rfl⟩ := foldlM_insertEntry_eq_ok_iff.mp made
      exact ⟨table, pairs, Heap.dict?_eq_some reading, each, rfl⟩
  · rintro ⟨table, pairs, body, each, rfl⟩
    unfold valueWith
    rw [Heap.dict?, body]
    exact congrArg (fun read : Except Refusal _ => read >>= fun entries => .ok (HostValue.map entries))
      (foldlM_insertEntry_eq_ok_iff.mpr ⟨pairs, each, rfl⟩)

/-- A tuple is read if it has as many items as the type and each of them is. -/
theorem valueWith_tuple_iff {types : List HostType} :
    valueWith program heap structs (.tuple types) ref old = .ok new ↔
      ∃ items values, (heap.body ref = .list items ∨ heap.body ref = .tuple items) ∧
        items.length = types.length ∧
        List.Forall₂ (fun part value => valueWith program heap structs part.1 part.2
          (program.zero part.1) = .ok value) (types.zip items) values ∧ new = .tuple values := by
  constructor
  · intro reached
    unfold valueWith at reached
    split at reached
    · rename_i items reading
      split at reached
      · rename_i size
        obtain ⟨values, read, last⟩ := exists_of_bind_eq_ok reached
        cases last
        exact ⟨items, values, Heap.items?_eq_some reading, size,
          (elementsWith_eq_ok_iff size).mp read, rfl⟩
      · cases reached
    · cases reached
  · rintro ⟨items, values, body, size, each, rfl⟩
    have reading : heap.items? ref = some items := by
      rcases body with body | body <;> rw [Heap.items?, body]
    unfold valueWith
    simp only [reading, if_pos size]
    rw [(elementsWith_eq_ok_iff size).mpr each]
    rfl

end

/-! ## Fields -/

theorem refusedField_eq_ok_iff {owner name : String} {result : Except Refusal α} {value : α} :
    refusedField owner name result = .ok value ↔ result = .ok value := by
  rcases result with (_ | _ | _) | _ <;> simp [refusedField]

/-- A field of a struct is read as one of its type or kept. -/
theorem readField_eq_ok_iff {structs : Structs} {owner : String} {table : Dict} {field : FieldDecl}
    {old value : HostValue} :
    readField program heap structs owner table field old = .ok value ↔
      (∀ inner, field.exported = true → table.get? (.text (Name.snake field.name)) = some inner →
        valueWith program heap structs field.type inner old = .ok value) ∧
      (field.exported = false ∨ table.get? (.text (Name.snake field.name)) = none →
        value = old) := by
  unfold readField
  cases field.exported with
  | false => simp [eq_comm]
  | true =>
    cases table.get? (.text (Name.snake field.name)) with
    | none => simp [eq_comm]
    | some inner => simp [refusedField_eq_ok_iff]

end Decode

end HostBridge
